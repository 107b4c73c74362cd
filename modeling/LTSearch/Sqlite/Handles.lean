/-
# LTSearch.Sqlite.Handles -- delivery handles are exclusive and single-use

Nothing is assumed about who calls what: batches may be enqueued again while they are claimed or
after they died, clocks may run backwards, consumers may ack or nack with any token at any time.
-/
import LTSearch.Sqlite.QueueSteps

namespace LTSearch

open LTSearch.Foundation

/-- `db'` has the rows of `db` in both job tables. -/
def SameJobs (db db' : LocalDb) : Prop :=
  db'.buildJobs = db.buildJobs ∧ db'.deadJobs = db.deadJobs

/-- What a token is worth in a state: a live one settles exactly its own row, any other changes
nothing. -/
structure HandleDiscipline (source : SqliteBuildJobSource) (w : Watched) : Prop where
  oneLive : ∀ d ∈ w.ledger.live, ∀ d' ∈ w.ledger.live, d.batchId = d'.batchId → d = d'
  staleAck : ∀ token faults, (∀ d ∈ w.ledger.live, d.token ≠ token) →
    SameJobs w.db (finalDb (ack token faults w.db))
  staleNack : ∀ now token error faults, (∀ d ∈ w.ledger.live, d.token ≠ token) →
    SameJobs w.db (finalDb (nack source now token error faults w.db))
  liveAck : ∀ d ∈ w.ledger.live, ∀ faults db', ack d.token faults w.db = .ok () db' →
    db'.job d.batchId = none ∧ (∀ b ≠ d.batchId, db'.job b = w.db.job b) ∧
      db'.deadJobs = w.db.deadJobs
  liveNack : ∀ d ∈ w.ledger.live, ∀ now error faults db',
    nack source now d.token error faults w.db = .ok () db' →
      (∀ b ≠ d.batchId, db'.job b = w.db.job b ∧ db'.dead b = w.db.dead b) ∧
      ∃ r, w.db.job d.batchId = some r ∧
        (if r.attempts + 1 = source.maxAttempts then
          db'.job d.batchId = none ∧ db'.dead d.batchId = some (deadRow now error r)
        else
          db'.job d.batchId = some (postponed (r.attempts + 1) (source.retryAt now r) r) ∧
            db'.dead d.batchId = w.db.dead d.batchId)

theorem QueueInv.handleDiscipline {source : SqliteBuildJobSource} {w : Watched}
    (h : QueueInv source w) : HandleDiscipline source w where
  oneLive := fun d hd d' hd' hb => h.live_unique hd hd' hb
  staleAck := by
    intro token faults hstale
    have hack : w.db.settle token = w.db := congrArg Watched.db (h.ack_of_stale hstale)
    cases hr : LTSearch.ack token faults w.db with
    | ok u db' =>
        rw [finalDb, ack_eq_ok hr, hack]
        exact ⟨rfl, rfl⟩
    | error e db' =>
        rw [finalDb, atomic_ack token _ _ _ hr]
        exact ⟨rfl, rfl⟩
  staleNack := by
    intro now token error faults hstale
    cases hr : LTSearch.nack source now token error faults w.db with
    | ok u db' =>
        rw [finalDb, nack_eq_ok hr, h.failDelivery_of_stale hstale]
        exact ⟨rfl, rfl⟩
    | error e db' =>
        rw [finalDb, atomic_nack token error _ _ _ hr]
        exact ⟨rfl, rfl⟩
  liveAck := by
    intro d hd faults db' hack
    have hjob := h.job_ack_of_live hd
    rw [ack_eq_ok hack]
    refine ⟨(hjob _).trans (if_pos rfl), fun b hb => (hjob b).trans (if_neg (Ne.symm hb)), rfl⟩
  liveNack := by
    intro d hd now error faults db' hnack
    obtain ⟨r, hr, -⟩ := h.held d hd
    have hjob := h.job_nack_of_live hd now error
    have hdead := h.dead_nack_of_live hd hr now error
    rw [nack_eq_ok hnack]
    refine ⟨fun b hb => ⟨(hjob b).trans (if_neg (Ne.symm hb)),
      (hdead b).trans (if_neg fun e => hb e.2.symm)⟩, r, hr, ?_⟩
    have hattempts := (h.attempts _ r hr).1
    have hnew : newAttempts r = r.attempts + 1 := by rw [h.newAttempts_eq hr, hattempts]
    have hex : source.exhausted r = true ↔ r.attempts + 1 = source.maxAttempts := by
      rw [h.exhausted_iff hr, hattempts]
      omega
    have hown := hjob d.batchId
    rw [if_pos rfl, hr, Option.bind_some, QueueInv.afterFailure] at hown
    by_cases hmax : r.attempts + 1 = source.maxAttempts
    · rw [if_pos hmax]
      rw [if_pos (hex.mpr hmax)] at hown
      exact ⟨hown, (hdead _).trans (if_pos ⟨hex.mpr hmax, rfl⟩)⟩
    · rw [if_neg hmax]
      rw [if_neg fun e => hmax (hex.mp e), hnew] at hown
      exact ⟨hown, (hdead _).trans (if_neg fun e => hmax (hex.mp e.1))⟩

/-! ## Ended deliveries stay ended -/

section Ended

variable {source : SqliteBuildJobSource} {w : Watched}

/-- A token that was handed out and is no longer live is not live after any call. -/
theorem stale_step (event : QueueCall × Faults)
    (hfresh : (w.step source event).ledger.issued.Nodup) {token : String}
    (hissued : token ∈ w.ledger.issued) (hstale : ∀ d ∈ w.ledger.live, d.token ≠ token) :
    ∀ d ∈ (w.step source event).ledger.live, d.token ≠ token := by
  rcases Watched.step_cases source w event with heq | heq
  · rw [heq]
    exact hstale
  rw [heq] at hfresh ⊢
  obtain ⟨call, faults⟩ := event
  cases call with
  | enqueue batch => exact fun d hd => hstale d (List.mem_of_mem_filter hd)
  | appendAndEnqueue walKey walBytes batch => exact fun d hd => hstale d (List.mem_of_mem_filter hd)
  | receive now draw =>
      intro d hd ht
      rcases List.mem_append.mp hd with hd | hd
      · exact hstale d (List.mem_of_mem_filter hd) ht
      · -- a delivery opened just now has a token of its own
        have hissued' : ((w.reclaim source now).claim now draw).ledger.issued =
            w.ledger.issued ++ ((w.reclaim source now).db.deliveries now.val draw).map (·.token) :=
          Ledger.issued_deliver _ _
        change ((w.reclaim source now).claim now draw).ledger.issued.Nodup at hfresh
        rw [hissued'] at hfresh
        exact (List.nodup_append.mp hfresh).2.2 token hissued token
          (List.mem_map.mpr ⟨d, hd, ht⟩) rfl
  | ack receipt => exact fun d hd => hstale d (List.mem_of_mem_filter hd)
  | nack now receipt error => exact fun d hd => hstale d (List.mem_of_mem_filter hd)

/-- Nor after any run. -/
theorem stale_run (calls : List (QueueCall × Faults))
    (hfresh : (run (Watched.step source) w calls).ledger.issued.Nodup) {token : String}
    (hissued : token ∈ w.ledger.issued) (hstale : ∀ d ∈ w.ledger.live, d.token ≠ token) :
    ∀ d ∈ (run (Watched.step source) w calls).ledger.live, d.token ≠ token := by
  have hinv := run_invariant_of_good
    (fun w : Watched => token ∈ w.ledger.issued ∧ ∀ d ∈ w.ledger.live, d.token ≠ token)
    (fun w => w.ledger.issued.Nodup) (nodup_issued_of_step source)
    (fun w event h hgood =>
      ⟨((opened_step source w event).map _).subset h.1, stale_step event hgood h.1 h.2⟩)
    ⟨hissued, hstale⟩ calls hfresh
  exact hinv.2

end Ended

/-! ## No delivery before its time -/

/-- The call does not enqueue batch `b`. -/
def QueueCall.SparesBatch (b : String) : QueueCall → Prop
  | .enqueue batch => batch.batchId ≠ b
  | .appendAndEnqueue _ _ batch => batch.batchId ≠ b
  | _ => True

/-- The call does not end delivery `d`: it does not settle it, does not enqueue its batch again and
does not receive once the lease has run out. -/
def QueueCall.LeavesAlone (source : SqliteBuildJobSource) (d : Delivery) : QueueCall → Prop
  | .receive now _ => now.val < d.claimedAt + source.leaseMs
  | .ack receipt => receipt ≠ d.token
  | .nack _ receipt _ => receipt ≠ d.token
  | call => call.SparesBatch d.batchId

/-- The call neither enqueues batch `b` nor receives at time `t` or later. -/
def QueueCall.Before (b : String) (t : Int) : QueueCall → Prop
  | .receive now _ => now.val < t
  | call => call.SparesBatch b

section NotBefore

variable {source : SqliteBuildJobSource} {w : Watched}

theorem openedFor_claim_of_not_due {now : Millis} {draw : String → String} {b : String}
    (h : ∀ r, w.db.job b = some r → due now.val r = false) :
    (w.claim now draw).ledger.openedFor b = w.ledger.openedFor b := by
  change (w.ledger.opened ++ w.db.deliveries now.val draw).filter _ = _
  rw [List.filter_append]
  have hnone : (w.db.deliveries now.val draw).filter (fun d => d.batchId = b) = [] := by
    rw [List.filter_eq_nil_iff]
    intro d hd hb
    obtain ⟨-, r, hr, hdue⟩ := mem_deliveries.mp hd
    rw [of_decide_eq_true hb] at hr
    rw [h r hr] at hdue
    cases hdue
  rw [hnone, List.append_nil]
  rfl

/-- A live delivery that a call leaves alone stays live, and its batch is not delivered. -/
theorem live_step (h : QueueInv source w) {d : Delivery} (hd : d ∈ w.ledger.live)
    (event : QueueCall × Faults) (hleaves : event.1.LeavesAlone source d) :
    d ∈ (w.step source event).ledger.live ∧
      (w.step source event).ledger.openedFor d.batchId = w.ledger.openedFor d.batchId := by
  rcases Watched.step_cases source w event with heq | heq
  · rw [heq]
    exact ⟨hd, rfl⟩
  rw [heq]
  obtain ⟨call, faults⟩ := event
  cases call with
  | enqueue batch =>
      exact ⟨List.mem_filter.mpr ⟨hd, decide_eq_true (Ne.symm hleaves)⟩, rfl⟩
  | appendAndEnqueue walKey walBytes batch =>
      exact ⟨List.mem_filter.mpr ⟨hd, decide_eq_true (Ne.symm hleaves)⟩, rfl⟩
  | receive now draw =>
      have hkept : d ∈ (w.reclaim source now).ledger.live :=
        List.mem_filter.mpr ⟨hd, decide_eq_true hleaves⟩
      refine ⟨List.mem_append_left _ hkept, ?_⟩
      apply openedFor_claim_of_not_due
      intro r hr
      obtain ⟨hstate, -⟩ := (h.reclaim now).row_of_live hkept hr
      simp [due, hstate]
  | ack receipt =>
      exact ⟨List.mem_filter.mpr ⟨hd, decide_eq_true (Ne.symm hleaves)⟩, rfl⟩
  | nack now receipt error =>
      exact ⟨List.mem_filter.mpr ⟨hd, decide_eq_true (Ne.symm hleaves)⟩, rfl⟩

/-- A ready row stays as it is, undelivered, under calls made before it is available. -/
theorem waiting_step (h : QueueInv source w) {b : String} {r : BuildJobRow}
    (hr : w.db.job b = some r) (hready : r.state = .ready) (event : QueueCall × Faults)
    (hbefore : event.1.Before b r.availableAt) :
    (w.step source event).db.job b = some r ∧
      (w.step source event).ledger.openedFor b = w.ledger.openedFor b := by
  have hnotLive : ∀ d ∈ w.ledger.live, d.batchId ≠ b := by
    rintro d hd rfl
    obtain ⟨hstate, -⟩ := h.row_of_live hd hr
    rw [hready] at hstate
    cases hstate
  rcases Watched.step_cases source w event with heq | heq
  · rw [heq]
    exact ⟨hr, rfl⟩
  rw [heq]
  obtain ⟨call, faults⟩ := event
  cases call with
  | enqueue batch =>
      refine ⟨?_, rfl⟩
      change (w.db.putJob batch).job b = some r
      rw [job_putJob, if_neg hbefore, hr]
  | appendAndEnqueue walKey walBytes batch =>
      refine ⟨?_, rfl⟩
      change ((w.db.putSegment walKey _).putJob batch).job b = some r
      rw [job_putJob, if_neg hbefore]
      exact hr
  | receive now draw =>
      have hreclaimed : (w.reclaim source now).db.job b = some r := by
        change (w.db.reclaimExpired _).job b = some r
        rw [job_reclaimExpired, hr, Option.map_some, if_neg]
        simp [leaseExpired, hready]
      have hnotDue : due now.val r = false := by
        have hlt : now.val < r.availableAt := hbefore
        simp only [due, hready, Bool.and_eq_false_iff, decide_eq_false_iff_not]
        right
        omega
      refine ⟨?_, ?_⟩
      · change ((w.reclaim source now).db.claimDue now.val draw).job b = some r
        rw [job_claimDue, hreclaimed, Option.map_some, if_neg (by simp [hnotDue])]
      · apply openedFor_claim_of_not_due
        intro r' hr'
        rw [hreclaimed] at hr'
        cases hr'
        exact hnotDue
  | ack receipt =>
      refine ⟨?_, rfl⟩
      change (w.ack receipt).db.job b = some r
      rcases QueueInv.live_or_stale w receipt with ⟨d, hd, rfl⟩ | hstale
      · rw [h.job_ack_of_live hd, if_neg (hnotLive d hd), hr]
      · rw [h.ack_of_stale hstale, hr]
  | nack now receipt error =>
      refine ⟨?_, rfl⟩
      change (w.nack source now receipt error).db.job b = some r
      rcases QueueInv.live_or_stale w receipt with ⟨d, hd, rfl⟩ | hstale
      · rw [h.job_nack_of_live hd, if_neg (hnotLive d hd), hr]
      · rw [h.nack_of_stale hstale, hr]

/-- A claimed job is not delivered again while its lease runs. -/
theorem live_run (h : QueueInv source w) {d : Delivery} (hd : d ∈ w.ledger.live)
    (calls : List (QueueCall × Faults))
    (hfresh : (run (Watched.step source) w calls).ledger.issued.Nodup)
    (hleaves : ∀ event ∈ calls, event.1.LeavesAlone source d) :
    d ∈ (run (Watched.step source) w calls).ledger.live ∧
      (run (Watched.step source) w calls).ledger.openedFor d.batchId =
        w.ledger.openedFor d.batchId := by
  induction calls generalizing w with
  | nil => exact ⟨hd, rfl⟩
  | cons event rest ih =>
      obtain ⟨hd', hopened⟩ := live_step h hd event (hleaves event List.mem_cons_self)
      have hnext := h.step event (nodup_issued_of_run rest hfresh)
      obtain ⟨hlast, hrest⟩ :=
        ih hnext hd' hfresh fun e he => hleaves e (List.mem_cons_of_mem _ he)
      exact ⟨hlast, hrest.trans hopened⟩

/-- A job that waits for its `available_at` is not delivered before it. -/
theorem waiting_run (h : QueueInv source w) {b : String} {r : BuildJobRow}
    (hr : w.db.job b = some r) (hready : r.state = .ready) (calls : List (QueueCall × Faults))
    (hfresh : (run (Watched.step source) w calls).ledger.issued.Nodup)
    (hbefore : ∀ event ∈ calls, event.1.Before b r.availableAt) :
    (run (Watched.step source) w calls).db.job b = some r ∧
      (run (Watched.step source) w calls).ledger.openedFor b = w.ledger.openedFor b := by
  induction calls generalizing w with
  | nil => exact ⟨hr, rfl⟩
  | cons event rest ih =>
      obtain ⟨hr', hopened⟩ := waiting_step h hr hready event (hbefore event List.mem_cons_self)
      have hnext := h.step event (nodup_issued_of_run rest hfresh)
      obtain ⟨hlast, hrest⟩ :=
        ih hnext hr' hfresh fun e he => hbefore e (List.mem_cons_of_mem _ he)
      exact ⟨hlast, hrest.trans hopened⟩

end NotBefore

/-- Delivery handles are exclusive and single-use, in the state after any calls and through any
calls after it: tokens act by the discipline; a token that is not live any more never comes back to
life; a claimed job is not delivered again while its lease runs; and a ready job, in particular one
that was nacked, is not delivered before its `available_at`. -/
theorem handles_exclusive {source : SqliteBuildJobSource} (calls more : List (QueueCall × Faults))
    (hfresh : (queueAfter source (calls ++ more)).ledger.issued.Nodup) :
    HandleDiscipline source (queueAfter source calls) ∧
    (∀ token ∈ (queueAfter source calls).ledger.issued,
      (∀ d ∈ (queueAfter source calls).ledger.live, d.token ≠ token) →
      ∀ d ∈ (queueAfter source (calls ++ more)).ledger.live, d.token ≠ token) ∧
    (∀ d ∈ (queueAfter source calls).ledger.live,
      (∀ event ∈ more, event.1.LeavesAlone source d) →
      d ∈ (queueAfter source (calls ++ more)).ledger.live ∧
        (queueAfter source (calls ++ more)).ledger.openedFor d.batchId =
          (queueAfter source calls).ledger.openedFor d.batchId) ∧
    (∀ b r, (queueAfter source calls).db.job b = some r → r.state = .ready →
      (∀ event ∈ more, event.1.Before b r.availableAt) →
      (queueAfter source (calls ++ more)).db.job b = some r ∧
        (queueAfter source (calls ++ more)).ledger.openedFor b =
          (queueAfter source calls).ledger.openedFor b) := by
  have happend : queueAfter source (calls ++ more) =
      run (Watched.step source) (queueAfter source calls) more := run_append _ _ _
  rw [happend] at hfresh ⊢
  have h : QueueInv source (queueAfter source calls) :=
    queueInv_run QueueInv.init calls (nodup_issued_of_run more hfresh)
  exact ⟨h.handleDiscipline, fun token hissued hstale => stale_run more hfresh hissued hstale,
    fun d hd hleaves => live_run h hd more hfresh hleaves,
    fun b r hr hready hbefore => waiting_run h hr hready more hfresh hbefore⟩

theorem handles_exclusive_retriedJob :
    HandleDiscipline .default (queueAfter .default (retriedJob.take 2)) :=
  (handles_exclusive (retriedJob.take 2) (retriedJob.drop 2) (by decide)).1

end LTSearch
