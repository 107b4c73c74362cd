/-
# LTSearch.Sqlite.Conservation -- no job is lost and none is doubled

When every batch id is enqueued once, each batch is in exactly one of four places: a ready row, a
claimed row, the dead-letter table, or settled by an ack that a live delivery of it made.
-/
import LTSearch.Sqlite.QueueSteps

namespace LTSearch

open LTSearch.Foundation

/-- Where a batch can be. -/
inductive Standing where
  | ready
  | claimed
  | dead
  | settled
  deriving DecidableEq, Repr

namespace Watched

/-- Batch `b` is at this place. -/
def Stands (w : Watched) (b : String) : Standing → Prop
  | .ready => ∃ r, w.db.job b = some r ∧ r.state = .ready
  | .claimed => ∃ r, w.db.job b = some r ∧ r.state = .claimed
  | .dead => ∃ d, w.db.dead b = some d
  | .settled => ∃ d ∈ w.ledger.settled, d.batchId = b

/-- The ids under which batches were enqueued, one per enqueue. -/
def enqueuedIds (w : Watched) : List String := w.ledger.enqueued.map (·.batchId)

end Watched

/-- What is known of the places of batches that are enqueued once each. -/
structure Placed (w : Watched) : Prop where
  /-- rows, dead jobs and settled deliveries are all of batches that were enqueued -/
  jobKnown : ∀ b r, w.db.job b = some r → b ∈ w.enqueuedIds
  deadKnown : ∀ b d, w.db.dead b = some d → b ∈ w.enqueuedIds
  settledKnown : ∀ d ∈ w.ledger.settled, d.batchId ∈ w.enqueuedIds
  /-- an enqueued batch is somewhere -/
  somewhere : ∀ b ∈ w.enqueuedIds,
    (∃ r, w.db.job b = some r) ∨ (∃ d, w.db.dead b = some d) ∨ ∃ d ∈ w.ledger.settled, d.batchId = b
  /-- and nowhere twice -/
  jobNotDead : ∀ b r, w.db.job b = some r → w.db.dead b = none
  jobNotSettled : ∀ b r, w.db.job b = some r → ∀ d ∈ w.ledger.settled, d.batchId ≠ b
  deadNotSettled : ∀ b e, w.db.dead b = some e → ∀ d ∈ w.ledger.settled, d.batchId ≠ b
  /-- a dead job keeps its body and its count -/
  deadRow : ∀ b d, w.db.dead b = some d →
    d.attempts = w.ledger.nacks b ∧ ∃ batch, w.ledger.latest b = some batch ∧ d.body = batch.toJson

namespace Placed

variable {source : SqliteBuildJobSource} {w : Watched}

theorem init : Placed .init where
  jobKnown := fun b r hr => by cases hr
  deadKnown := fun b d hd => by cases hd
  settledKnown := fun d hd => absurd hd List.not_mem_nil
  somewhere := fun b hb => absurd hb List.not_mem_nil
  jobNotDead := fun b r hr => by cases hr
  jobNotSettled := fun b r hr => by cases hr
  deadNotSettled := fun b e he => by cases he
  deadRow := fun b d hd => by cases hd

/-- Changes that move no batch and touch neither the dead jobs nor the history. -/
theorem of_same_places (h : Placed w) {w' : Watched}
    (hjob : ∀ b, (w'.db.job b).isSome = (w.db.job b).isSome)
    (hdead : w'.db.deadJobs = w.db.deadJobs) (henqueued : w'.ledger.enqueued = w.ledger.enqueued)
    (hsettled : w'.ledger.settled = w.ledger.settled) (hnacks : w'.ledger.nacks = w.ledger.nacks) :
    Placed w' := by
  have hids : w'.enqueuedIds = w.enqueuedIds := 
    congrArg (List.map QueueBatch.batchId) henqueued
  have hdead' : ∀ b, w'.db.dead b = w.db.dead b := fun b => congrArg (·.get b) hdead
  have hrow : ∀ {b r}, w'.db.job b = some r → ∃ r₀, w.db.job b = some r₀ := by
    intro b r hr
    apply Option.isSome_iff_exists.mp
    rw [← hjob, hr]
    rfl
  have hlatest : ∀ b, w'.ledger.latest b = w.ledger.latest b := by
    intro b
    unfold Ledger.latest
    rw [henqueued]
  exact {
    jobKnown := by
      intro b r hr
      obtain ⟨r₀, hr₀⟩ := hrow hr
      exact hids ▸ h.jobKnown b r₀ hr₀
    deadKnown := by
      intro b d hd
      exact hids ▸ h.deadKnown b d (hdead' b ▸ hd)
    settledKnown := by
      intro d hd
      exact hids ▸ h.settledKnown d (hsettled ▸ hd)
    somewhere := by
      intro b hb
      rcases h.somewhere b (hids ▸ hb) with ⟨r, hr⟩ | ⟨d, hd⟩ | ⟨d, hd, hdb⟩
      · left
        apply Option.isSome_iff_exists.mp
        rw [hjob, hr]
        rfl
      · exact .inr (.inl ⟨d, (hdead' b).trans hd⟩)
      · exact .inr (.inr ⟨d, hsettled.symm ▸ hd, hdb⟩)
    jobNotDead := by
      intro b r hr
      obtain ⟨r₀, hr₀⟩ := hrow hr
      exact (hdead' b).trans (h.jobNotDead b r₀ hr₀)
    jobNotSettled := by
      intro b r hr
      obtain ⟨r₀, hr₀⟩ := hrow hr
      exact hsettled ▸ h.jobNotSettled b r₀ hr₀
    deadNotSettled := by
      intro b e he
      exact hsettled ▸ h.deadNotSettled b e (hdead' b ▸ he)
    deadRow := by
      intro b d hd
      rw [hnacks, hlatest]
      exact h.deadRow b d (hdead' b ▸ hd) }

theorem reclaim (h : Placed w) (now : Millis) : Placed (w.reclaim source now) :=
  h.of_same_places (fun b => by
    change ((w.db.reclaimExpired (wrapI64 (now.val - source.leaseMs))).job b).isSome = _
    rw [job_reclaimExpired, Option.isSome_map]) rfl rfl rfl rfl

theorem claim (h : Placed w) (now : Millis) (draw : String → String) : Placed (w.claim now draw) :=
  h.of_same_places (fun b => by
    change ((w.db.claimDue now.val draw).job b).isSome = _
    rw [job_claimDue, Option.isSome_map]) rfl rfl rfl rfl

theorem putSegment (h : Placed w) (key : String) (data : ByteArray) :
    Placed (w.putSegment key data) :=
  h.of_same_places (fun _ => rfl) rfl rfl rfl rfl

/-- A batch of a new id starts as a row of its own. -/
theorem enqueue (h : Placed w) {batch : QueueBatch} (hnew : batch.batchId ∉ w.enqueuedIds) :
    Placed (w.enqueue batch) := by
  have hids : (w.enqueue batch).enqueuedIds = batch.batchId :: w.enqueuedIds := rfl
  have hjob : ∀ b, (w.enqueue batch).db.job b =
      if batch.batchId = b then some (freshRow batch) else w.db.job b := by
    intro b
    change (w.db.putJob batch).job b = _
    rw [job_putJob]
    by_cases hb : batch.batchId = b
    · subst hb
      -- a new id has no row yet
      have hnone : w.db.job batch.batchId = none := by
        by_contra hsome
        obtain ⟨r, hr⟩ := Option.ne_none_iff_exists'.mp hsome
        exact hnew (h.jobKnown _ r hr)
      rw [if_pos rfl, if_pos rfl, hnone]
      rfl
    · rw [if_neg hb, if_neg hb]
  have hold : ∀ {b}, b ∈ w.enqueuedIds → batch.batchId ≠ b := fun hb e => hnew (e ▸ hb)
  exact {
    jobKnown := by
      intro b r hr
      rw [hids, List.mem_cons]
      rw [hjob] at hr
      by_cases hb : batch.batchId = b
      · exact .inl hb.symm
      · rw [if_neg hb] at hr
        exact .inr (h.jobKnown b r hr)
    deadKnown := fun b d hd => List.mem_cons_of_mem _ (h.deadKnown b d hd)
    settledKnown := fun d hd => List.mem_cons_of_mem _ (h.settledKnown d hd)
    somewhere := by
      intro b hb
      by_cases hbatch : batch.batchId = b
      · left
        exact ⟨freshRow batch, by rw [hjob, if_pos hbatch]⟩
      · rw [hjob, if_neg hbatch]
        rcases List.mem_cons.mp hb with rfl | hb
        · exact absurd rfl hbatch
        · exact h.somewhere b hb
    jobNotDead := by
      intro b r hr
      change w.db.dead b = none
      rw [hjob] at hr
      by_cases hb : batch.batchId = b
      · by_contra hsome
        obtain ⟨d, hd⟩ := Option.ne_none_iff_exists'.mp hsome
        exact hold (h.deadKnown b d hd) hb
      · rw [if_neg hb] at hr
        exact h.jobNotDead b r hr
    jobNotSettled := by
      intro b r hr d hd
      rw [hjob] at hr
      by_cases hb : batch.batchId = b
      · exact fun e => hold (h.settledKnown d hd) (hb.trans e.symm)
      · rw [if_neg hb] at hr
        exact h.jobNotSettled b r hr d hd
    deadNotSettled := h.deadNotSettled
    deadRow := by
      intro b d hd
      have hb := hold (h.deadKnown b d hd)
      rw [show (w.enqueue batch).ledger.latest b = (w.ledger.enqueue batch).latest b from rfl,
        QueueInv.latest_enqueue, if_neg hb]
      rw [show (w.enqueue batch).ledger.nacks b =
        if b = batch.batchId then 0 else w.ledger.nacks b from rfl, if_neg (Ne.symm hb)]
      exact h.deadRow b d hd }

/-- An ack with a live receipt moves its own batch to the settled ones. -/
theorem ack (h : Placed w) (hq : QueueInv source w) (receipt : String) : Placed (w.ack receipt) := by
  rcases QueueInv.live_or_stale w receipt with ⟨d, hd, rfl⟩ | hstale
  swap
  · rw [hq.ack_of_stale hstale]
    exact h
  obtain ⟨row, hrow, -⟩ := hq.held d hd
  -- of the live deliveries exactly the one with this receipt is settled
  have hsettled : ∀ e, e ∈ (w.ack d.token).ledger.settled ↔ e ∈ w.ledger.settled ∨ e = d := by
    intro e
    change e ∈ w.ledger.settled ++ w.ledger.live.filter (fun e => e.token = d.token) ↔ _
    rw [List.mem_append, List.mem_filter, decide_eq_true_iff]
    apply or_congr_right
    constructor
    · rintro ⟨he, ht⟩
      exact hq.live_token_inj he hd ht
    · rintro rfl
      exact ⟨hd, rfl⟩
  have hjob : ∀ {b r}, (w.ack d.token).db.job b = some r →
      d.batchId ≠ b ∧ w.db.job b = some r := by
    intro b r hr
    rw [hq.job_ack_of_live hd] at hr
    by_cases hb : d.batchId = b
    · rw [if_pos hb] at hr
      cases hr
    · rw [if_neg hb] at hr
      exact ⟨hb, hr⟩
  exact {
    jobKnown := fun b r hr => h.jobKnown b r (hjob hr).2
    deadKnown := h.deadKnown
    settledKnown := by
      intro e he
      rcases (hsettled e).mp he with he | rfl
      · exact h.settledKnown e he
      · exact h.jobKnown _ row hrow
    somewhere := by
      intro b hb
      by_cases hdb : d.batchId = b
      · exact .inr (.inr ⟨d, (hsettled d).mpr (.inr rfl), hdb⟩)
      · rw [hq.job_ack_of_live hd, if_neg hdb]
        rcases h.somewhere b hb with hjob | hdead | ⟨e, he, heb⟩
        · exact .inl hjob
        · exact .inr (.inl hdead)
        · exact .inr (.inr ⟨e, (hsettled e).mpr (.inl he), heb⟩)
    jobNotDead := fun b r hr => h.jobNotDead b r (hjob hr).2
    jobNotSettled := by
      intro b r hr e he
      rcases (hsettled e).mp he with he | rfl
      · exact h.jobNotSettled b r (hjob hr).2 e he
      · exact (hjob hr).1
    deadNotSettled := by
      intro b x hx e he
      rcases (hsettled e).mp he with he | rfl
      · exact h.deadNotSettled b x hx e he
      · rintro rfl
        have hnone := h.jobNotDead _ row hrow
        cases hnone.symm.trans hx
    deadRow := h.deadRow }

/-- A nack with a live receipt leaves its batch a row, or makes it a dead job. -/
theorem nack (h : Placed w) (hq : QueueInv source w) (now : Millis) (receipt error : String) :
    Placed (w.nack source now receipt error) := by
  rcases QueueInv.live_or_stale w receipt with ⟨d, hd, rfl⟩ | hstale
  swap
  · rw [hq.nack_of_stale hstale]
    exact h
  obtain ⟨row, hrow, -⟩ := hq.held d hd
  have hdead := hq.dead_nack_of_live hd hrow now error
  have hnacks : ∀ b, (w.nack source now d.token error).ledger.nacks b =
      if d.batchId = b then w.ledger.nacks b + 1 else w.ledger.nacks b := hq.nacks_nack_of_live hd
  have hjob : ∀ {b r}, (w.nack source now d.token error).db.job b = some r →
      (∃ r₀, w.db.job b = some r₀) ∧ (d.batchId = b → source.exhausted row = false) := by
    intro b r hr
    rcases hq.row_nack hd hr with ⟨rfl, r₀, hr₀, hex, -⟩ | ⟨hb, hr⟩
    · rw [hrow] at hr₀
      cases hr₀
      exact ⟨⟨row, hrow⟩, fun _ => hex⟩
    · exact ⟨⟨r, hr⟩, fun e => absurd e hb⟩
  exact {
    jobKnown := by
      intro b r hr
      obtain ⟨⟨r₀, hr₀⟩, -⟩ := hjob hr
      exact h.jobKnown b r₀ hr₀
    deadKnown := by
      intro b x hx
      rw [hdead] at hx
      by_cases hcase : source.exhausted row = true ∧ d.batchId = b
      · exact h.jobKnown b row (hcase.2 ▸ hrow)
      · rw [if_neg hcase] at hx
        exact h.deadKnown b x hx
    settledKnown := h.settledKnown
    somewhere := by
      intro b hb
      rw [hq.job_nack_of_live hd, hdead]
      by_cases hdb : d.batchId = b
      · subst hdb
        rw [if_pos rfl, hrow]
        by_cases hex : source.exhausted row = true
        · right; left
          exact ⟨_, if_pos ⟨hex, rfl⟩⟩
        · left
          exact ⟨_, by rw [Option.bind_some, QueueInv.afterFailure, if_neg hex]⟩
      · rw [if_neg hdb, if_neg fun e => hdb e.2]
        exact h.somewhere b hb
    jobNotDead := by
      intro b r hr
      obtain ⟨⟨r₀, hr₀⟩, hex⟩ := hjob hr
      rw [hdead, if_neg]
      · exact h.jobNotDead b r₀ hr₀
      · rintro ⟨hex', hb⟩
        rw [hex hb] at hex'
        cases hex'
    jobNotSettled := by
      intro b r hr
      obtain ⟨⟨r₀, hr₀⟩, -⟩ := hjob hr
      exact h.jobNotSettled b r₀ hr₀
    deadNotSettled := by
      intro b x hx
      rw [hdead] at hx
      by_cases hcase : source.exhausted row = true ∧ d.batchId = b
      · exact h.jobNotSettled b row (hcase.2 ▸ hrow)
      · rw [if_neg hcase] at hx
        exact h.deadNotSettled b x hx
    deadRow := by
      intro b x hx
      rw [hnacks]
      rw [hdead] at hx
      by_cases hcase : source.exhausted row = true ∧ d.batchId = b
      · rw [if_pos hcase] at hx
        cases hx
        obtain ⟨-, rfl⟩ := hcase
        rw [if_pos rfl]
        exact ⟨hq.newAttempts_eq hrow, hq.body _ row hrow⟩
      · rw [if_neg hcase] at hx
        by_cases hb : d.batchId = b
        · subst hb
          rw [h.jobNotDead _ row hrow] at hx
          cases hx
        · rw [if_neg hb]
          exact h.deadRow b x hx }

/-- Every call keeps the batches placed, as long as no id is enqueued twice. -/
theorem step (h : Placed w) (hq : QueueInv source w) (event : QueueCall × Faults)
    (hids : (w.step source event).enqueuedIds.Nodup) : Placed (w.step source event) := by
  rcases Watched.step_cases source w event with heq | heq
  · rw [heq]
    exact h
  rw [heq] at hids ⊢
  obtain ⟨call, faults⟩ := event
  cases call with
  | enqueue batch => exact h.enqueue (List.nodup_cons.mp hids).1
  | appendAndEnqueue walKey walBytes batch =>
      exact (h.putSegment _ _).enqueue (List.nodup_cons.mp hids).1
  | receive now draw => exact (h.reclaim now).claim now draw
  | ack receipt => exact h.ack hq receipt
  | nack now receipt error => exact h.nack hq now receipt error

end Placed

/-- Enqueueing only adds to the list of ids enqueued. -/
theorem nodup_enqueuedIds_of_step {source : SqliteBuildJobSource} (w : Watched)
    (event : QueueCall × Faults) (h : (w.step source event).enqueuedIds.Nodup) :
    w.enqueuedIds.Nodup := by
  rcases Watched.step_cases source w event with heq | heq
  · rwa [heq] at h
  rw [heq] at h
  obtain ⟨call, faults⟩ := event
  cases call with
  | enqueue batch => exact (List.nodup_cons.mp h).2
  | appendAndEnqueue walKey walBytes batch => exact (List.nodup_cons.mp h).2
  | receive now draw => exact h
  | ack receipt => exact h
  | nack now receipt error => exact h

/-- With ids enqueued once and tokens drawn once, every run leaves rows, ledger and places in
agreement. -/
theorem placed_run {source : SqliteBuildJobSource} (calls : List (QueueCall × Faults))
    (hfresh : (queueAfter source calls).ledger.issued.Nodup)
    (hids : (queueAfter source calls).enqueuedIds.Nodup) :
    QueueInv source (queueAfter source calls) ∧ Placed (queueAfter source calls) :=
  run_invariant_of_good (fun w => QueueInv source w ∧ Placed w)
    (fun w => w.ledger.issued.Nodup ∧ w.enqueuedIds.Nodup)
    (fun w event h => ⟨nodup_issued_of_step source w event h.1, nodup_enqueuedIds_of_step w event h.2⟩)
    (fun _ event h hgood => ⟨h.1.step event hgood.1, h.2.step h.1 event hgood.2⟩)
    ⟨QueueInv.init, Placed.init⟩ calls ⟨hfresh, hids⟩

/-- In agreement, a batch is at exactly one place. -/
theorem Placed.existsUnique_stands {w : Watched} (h : Placed w) {b : String}
    (hb : b ∈ w.enqueuedIds) : ∃! place, w.Stands b place := by
  have hexclusive : ∀ p q, w.Stands b p → w.Stands b q → p = q := by
    have hjd : ∀ {r e}, w.db.job b = some r → w.db.dead b = some e → False := by
      intro r e hr he
      rw [h.jobNotDead b r hr] at he
      cases he
    intro p q hp hq
    cases p <;> cases q <;> first | rfl | exfalso
    all_goals
      obtain ⟨x, hx⟩ := hp
      obtain ⟨y, hy⟩ := hq
    · rw [hx.1] at hy
      cases hy.1
      rw [hx.2] at hy
      cases hy.2
    · exact hjd hx.1 hy
    · exact h.jobNotSettled b x hx.1 y hy.1 hy.2
    · rw [hx.1] at hy
      cases hy.1
      rw [hx.2] at hy
      cases hy.2
    · exact hjd hx.1 hy
    · exact h.jobNotSettled b x hx.1 y hy.1 hy.2
    · exact hjd hy.1 hx
    · exact hjd hy.1 hx
    · exact h.deadNotSettled b x hx y hy.1 hy.2
    · exact h.jobNotSettled b y hy.1 x hx.1 hx.2
    · exact h.jobNotSettled b y hy.1 x hx.1 hx.2
    · exact h.deadNotSettled b y hy x hx.1 hx.2
  rcases h.somewhere b hb with ⟨r, hr⟩ | hdead | hsettled
  · cases hstate : r.state with
    | ready => exact ⟨.ready, ⟨r, hr, hstate⟩, fun q hq => hexclusive _ _ hq ⟨r, hr, hstate⟩⟩
    | claimed => exact ⟨.claimed, ⟨r, hr, hstate⟩, fun q hq => hexclusive _ _ hq ⟨r, hr, hstate⟩⟩
  · exact ⟨.dead, hdead, fun q hq => hexclusive _ _ hq hdead⟩
  · exact ⟨.settled, hsettled, fun q hq => hexclusive _ _ hq hsettled⟩

/-- With distinct ids, the batch last enqueued under an id is the one enqueued under it. -/
theorem latest_of_mem {l : Ledger} (hids : (l.enqueued.map (·.batchId)).Nodup) {batch : QueueBatch}
    (h : batch ∈ l.enqueued) : l.latest batch.batchId = some batch := by
  unfold Ledger.latest
  have hsome : (l.enqueued.find? fun e => e.batchId = batch.batchId).isSome :=
    List.find?_isSome.mpr ⟨batch, h, by simp⟩
  obtain ⟨e, he⟩ := Option.isSome_iff_exists.mp hsome
  have hkey : e.batchId = batch.batchId := by simpa using List.find?_some he
  rw [he, List.inj_on_of_nodup_map hids (List.mem_of_find?_eq_some he) h hkey]

/-- The books of a queue balance. -/
structure Conserved (source : SqliteBuildJobSource) (w : Watched) : Prop where
  standing : ∀ batch ∈ w.ledger.enqueued, ∃! place, w.Stands batch.batchId place
  row : ∀ batch ∈ w.ledger.enqueued, ∀ r, w.db.job batch.batchId = some r →
    r.body = batch.toJson ∧ r.attempts = w.ledger.nacks batch.batchId
  dead : ∀ batch ∈ w.ledger.enqueued, ∀ d, w.db.dead batch.batchId = some d →
    d.body = batch.toJson ∧ d.attempts = w.ledger.nacks batch.batchId
  rowAttempts : ∀ r ∈ w.db.buildJobs.rows, r.attempts < source.maxAttempts
  deadAttempts : ∀ d ∈ w.db.deadJobs.rows, d.attempts = source.maxAttempts

/-- Whatever producers and consumers do, in whatever order and at whatever clock readings: when
batch ids and claim tokens are distinct, the books balance. -/
theorem queue_conserved {source : SqliteBuildJobSource} (calls : List (QueueCall × Faults))
    (hfresh : (queueAfter source calls).ledger.issued.Nodup)
    (hids : (queueAfter source calls).enqueuedIds.Nodup) :
    Conserved source (queueAfter source calls) := by
  obtain ⟨hq, hp⟩ := placed_run calls hfresh hids
  exact {
    standing := fun batch hb => hp.existsUnique_stands (List.mem_map_of_mem hb)
    row := by
      intro batch hb r hr
      obtain ⟨batch', hlatest, hbody⟩ := hq.body _ r hr
      rw [latest_of_mem hids hb] at hlatest
      cases hlatest
      exact ⟨hbody, (hq.attempts _ r hr).1⟩
    dead := by
      intro batch hb d hd
      obtain ⟨hattempts, batch', hlatest, hbody⟩ := hp.deadRow _ d hd
      rw [latest_of_mem hids hb] at hlatest
      cases hlatest
      exact ⟨hbody, hattempts⟩
    rowAttempts := by
      intro r hr
      obtain ⟨hattempts, hlt⟩ := hq.attempts _ r (mem_rows_iff.mp hr)
      omega
    deadAttempts := fun d hd => hq.dead _ d (Table.mem_iff_get.mp hd) }

theorem queue_conserved_retriedJob :
    Conserved .default (queueAfter .default retriedJob) :=
  queue_conserved retriedJob (by decide) (by decide)

end LTSearch
