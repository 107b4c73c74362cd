/-
# LTSearch.Sqlite.QueueSteps -- every call keeps rows and ledger in agreement

One lemma per change of the database, each a walk over the rows through the equation that says what
a later read by batch id answers.  `receive` is the composition of two of them.  The run lemma at
the end is what the results about queues start from.

For each change a lemma `row_…` says where a row that is there afterwards comes from; the fields of
`QueueInv` are then proved by that case split alone, without a look at the statements.  A call that fails
leaves the database as it was (`Watched.step_cases`), so the faults are gone before the walk begins.  Only
a claim needs an assumption: the tokens it draws are new, which the run lemma is given for the whole run.
-/
import LTSearch.Sqlite.QueueInvariant

namespace LTSearch

open LTSearch.Foundation

namespace QueueInv

variable {source : SqliteBuildJobSource} {w : Watched}

theorem init : QueueInv source .init where
  held := fun d hd => absurd hd List.not_mem_nil
  claimed := fun b r hr => by cases hr
  unique := fun b b' r r' token hr => by cases hr
  issued := fun b r token hr => by cases hr
  attempts := fun b r hr => by cases hr
  body := fun b r hr => by cases hr
  dead := fun b d hd => by cases hd

theorem putSegment (h : QueueInv source w) (key : String) (data : ByteArray) :
    QueueInv source (w.putSegment key data) :=
  ⟨h.held, h.claimed, h.unique, h.issued, h.attempts, h.body, h.dead⟩

/-! ## Enqueue -/

/-- The row an enqueue leaves behind is ready, with the stale token of the row it replaced. -/
theorem row_enqueue {batch : QueueBatch} {b : String} {r : BuildJobRow}
    (hr : (w.enqueue batch).db.job b = some r) :
    (batch.batchId = b ∧ r.state = .ready ∧ r.attempts = 0 ∧ r.body = batch.toJson ∧
      ∀ token, r.claimToken = some token → ∃ r₀, w.db.job b = some r₀ ∧ r₀.claimToken = some token) ∨
    (batch.batchId ≠ b ∧ w.db.job b = some r) := by
  change (w.db.putJob batch).job b = some r at hr
  rw [job_putJob] at hr
  -- `ON CONFLICT` keeps the columns that the statement does not name, the token among them
  by_cases hb : batch.batchId = b
  · left
    rw [if_pos hb] at hr
    cases hr₀ : w.db.job b with
    | none =>
        rw [hr₀] at hr
        cases hr
        refine ⟨hb, rfl, rfl, rfl, ?_⟩
        intro token ht
        cases ht
    | some r₀ =>
        rw [hr₀] at hr
        cases hr
        exact ⟨hb, rfl, rfl, rfl, fun token ht => ⟨r₀, rfl, ht⟩⟩
  · right
    rw [if_neg hb] at hr
    exact ⟨hb, hr⟩

/-- Whatever token a row carries after an enqueue, the row of that batch carried it before. -/
theorem token_before_enqueue {batch : QueueBatch} {b token : String} {r : BuildJobRow}
    (hr : (w.enqueue batch).db.job b = some r) (ht : r.claimToken = some token) :
    ∃ r₀, w.db.job b = some r₀ ∧ r₀.claimToken = some token := by
  rcases row_enqueue hr with ⟨-, -, -, -, hold⟩ | ⟨-, hr₀⟩
  · exact hold token ht
  · exact ⟨r, hr₀, ht⟩

theorem latest_enqueue (l : Ledger) (batch : QueueBatch) (b : String) :
    (l.enqueue batch).latest b = if batch.batchId = b then some batch else l.latest b := by
  unfold Ledger.latest Ledger.enqueue
  rw [List.find?_cons]
  by_cases hb : batch.batchId = b <;> simp [hb]

theorem enqueue (h : QueueInv source w) (batch : QueueBatch) : QueueInv source (w.enqueue batch) where
  held := by
    intro d hd
    -- the deliveries of the batch itself are not live any more
    obtain ⟨hd, hne⟩ := List.mem_filter.mp hd
    have hne : batch.batchId ≠ d.batchId := fun e => of_decide_eq_true hne e.symm
    obtain ⟨r, hr, hrest⟩ := h.held d hd
    refine ⟨r, ?_, hrest⟩
    change (w.db.putJob batch).job d.batchId = some r
    rw [job_putJob, if_neg hne, hr]
  claimed := by
    intro b r hr hstate
    rcases row_enqueue hr with ⟨-, hready, -⟩ | ⟨hb, hr⟩
    · rw [hready] at hstate
      cases hstate
    · obtain ⟨d, hd, rfl⟩ := h.claimed b r hr hstate
      exact ⟨d, List.mem_filter.mpr ⟨hd, decide_eq_true fun e => hb e.symm⟩, rfl⟩
  unique := by
    intro b b' r r' token hr hr' ht ht'
    obtain ⟨r₀, hr₀, ht₀⟩ := token_before_enqueue hr ht
    obtain ⟨r₀', hr₀', ht₀'⟩ := token_before_enqueue hr' ht'
    exact h.unique b b' r₀ r₀' token hr₀ hr₀' ht₀ ht₀'
  issued := by
    intro b r token hr ht
    obtain ⟨r₀, hr₀, ht₀⟩ := token_before_enqueue hr ht
    exact h.issued b r₀ token hr₀ ht₀
  attempts := by
    intro b r hr
    -- the count starts again
    change r.attempts = ((if b = batch.batchId then 0 else w.ledger.nacks b : Nat) : Int) ∧
      (if b = batch.batchId then 0 else w.ledger.nacks b) < source.maxAttempts
    rcases row_enqueue hr with ⟨hb, -, hattempts, -, -⟩ | ⟨hb, hr⟩
    · rw [if_pos hb.symm]
      exact ⟨hattempts, source.maxAttempts_pos⟩
    · rw [if_neg (Ne.symm hb)]
      exact h.attempts b r hr
  body := by
    intro b r hr
    change ∃ batch', (w.ledger.enqueue batch).latest b = some batch' ∧ r.body = batch'.toJson
    rw [latest_enqueue]
    rcases row_enqueue hr with ⟨hb, -, -, hbody, -⟩ | ⟨hb, hr⟩
    · exact ⟨batch, if_pos hb, hbody⟩
    · rw [if_neg hb]
      exact h.body b r hr
  dead := h.dead

/-! ## Receive, first half: expired leases come back -/

/-- A row after the reclaim: given back when its lease ran out by `now`, else untouched. -/
theorem row_reclaim {now : Millis} {b : String} {r : BuildJobRow}
    (hr : (w.reclaim source now).db.job b = some r) :
    ∃ r₀, w.db.job b = some r₀ ∧
      ((leaseExpired (now.val - source.leaseMs) r₀ = true ∧ r = released r₀) ∨
        (leaseExpired (now.val - source.leaseMs) r₀ = false ∧ r = r₀)) := by
  change (w.db.reclaimExpired (wrapI64 (now.val - source.leaseMs))).job b = some r at hr
  rw [job_reclaimExpired, wrapI64_sub_lease] at hr
  obtain ⟨r₀, hr₀, hr⟩ := Option.map_eq_some_iff.mp hr
  refine ⟨r₀, hr₀, ?_⟩
  by_cases he : leaseExpired (now.val - source.leaseMs) r₀ = true
  · rw [if_pos he] at hr
    exact .inl ⟨he, hr.symm⟩
  · rw [if_neg he] at hr
    exact .inr ⟨by simpa using he, hr.symm⟩

theorem reclaim (h : QueueInv source w) (now : Millis) :
    QueueInv source (w.reclaim source now) where
  held := by
    intro d hd
    obtain ⟨hd, hleft⟩ := List.mem_filter.mp hd
    have hleft : now.val < d.claimedAt + source.leaseMs := of_decide_eq_true hleft
    obtain ⟨r, hr, hstate, htoken, hat⟩ := h.held d hd
    refine ⟨r, ?_, hstate, htoken, hat⟩
    change (w.db.reclaimExpired (wrapI64 (now.val - source.leaseMs))).job d.batchId = some r
    -- the lease of a delivery that stays live has not run out
    rw [job_reclaimExpired, wrapI64_sub_lease, hr, Option.map_some, if_neg]
    rw [leaseExpired_iff]
    rintro ⟨-, t, ht, hle⟩
    rw [hat] at ht
    cases ht
    omega
  claimed := by
    intro b r hr hstate
    obtain ⟨r₀, hr₀, ⟨-, rfl⟩ | ⟨he, rfl⟩⟩ := row_reclaim hr
    · cases hstate
    · -- a row that stays claimed is within its lease, and so is its delivery
      obtain ⟨d, hd, rfl⟩ := h.claimed b r hr₀ hstate
      obtain ⟨-, -, hat⟩ := h.row_of_live hd hr₀
      refine ⟨d, List.mem_filter.mpr ⟨hd, decide_eq_true ?_⟩, rfl⟩
      by_contra hlt
      have hexp : leaseExpired (now.val - source.leaseMs) r = true :=
        leaseExpired_iff.mpr ⟨hstate, d.claimedAt, hat, by omega⟩
      rw [hexp] at he
      cases he
  unique := by
    intro b b' r r' token hr hr' ht ht'
    obtain ⟨r₀, hr₀, ⟨-, rfl⟩ | ⟨-, rfl⟩⟩ := row_reclaim hr
    · cases ht
    obtain ⟨r₀', hr₀', ⟨-, rfl⟩ | ⟨-, rfl⟩⟩ := row_reclaim hr'
    · cases ht'
    exact h.unique b b' _ _ token hr₀ hr₀' ht ht'
  issued := by
    intro b r token hr ht
    obtain ⟨r₀, hr₀, ⟨-, rfl⟩ | ⟨-, rfl⟩⟩ := row_reclaim hr
    · cases ht
    exact h.issued b _ token hr₀ ht
  attempts := by
    intro b r hr
    obtain ⟨r₀, hr₀, ⟨-, rfl⟩ | ⟨-, rfl⟩⟩ := row_reclaim hr
    · exact h.attempts b r₀ hr₀
    · exact h.attempts b r hr₀
  body := by
    intro b r hr
    obtain ⟨r₀, hr₀, ⟨-, rfl⟩ | ⟨-, rfl⟩⟩ := row_reclaim hr
    · exact h.body b r₀ hr₀
    · exact h.body b r hr₀
  dead := h.dead

/-! ## Receive, second half: due rows are claimed -/

theorem row_claim {now : Millis} {draw : String → String} {b : String} {r : BuildJobRow}
    (hr : (w.claim now draw).db.job b = some r) :
    ∃ r₀, w.db.job b = some r₀ ∧
      ((due now.val r₀ = true ∧ r = claimedAs now.val draw r₀ ∧
          (⟨draw b, b, now.val⟩ : Delivery) ∈ w.db.deliveries now.val draw) ∨
        (due now.val r₀ = false ∧ r = r₀)) := by
  change (w.db.claimDue now.val draw).job b = some r at hr
  rw [job_claimDue] at hr
  obtain ⟨r₀, hr₀, hr⟩ := Option.map_eq_some_iff.mp hr
  refine ⟨r₀, hr₀, ?_⟩
  by_cases hd : due now.val r₀ = true
  · rw [if_pos hd] at hr
    exact .inl ⟨hd, hr.symm, mem_deliveries.mpr ⟨rfl, r₀, hr₀, hd⟩⟩
  · rw [if_neg hd] at hr
    exact .inr ⟨by simpa using hd, hr.symm⟩

theorem claim (h : QueueInv source w) {now : Millis} {draw : String → String}
    (hfresh : (w.claim now draw).ledger.issued.Nodup) : QueueInv source (w.claim now draw) := by
  have hissued : (w.claim now draw).ledger.issued =
      w.ledger.issued ++ (w.db.deliveries now.val draw).map (·.token) :=
    Ledger.issued_deliver _ _
  rw [hissued] at hfresh
  obtain ⟨-, hnodup, hdisjoint⟩ := List.nodup_append.mp hfresh
  -- a token that is drawn now was not drawn before
  have hnew : ∀ b token, (⟨token, b, now.val⟩ : Delivery) ∈ w.db.deliveries now.val draw →
      token ∉ w.ledger.issued := by
    intro b token hd hold
    exact hdisjoint token hold token (List.mem_map.mpr ⟨_, hd, rfl⟩) rfl
  exact {
    held := by
      intro d hd
      rcases List.mem_append.mp hd with hd | hd
      · -- an old delivery: its row is claimed, so it is not due
        obtain ⟨r, hr, hstate, htoken, hat⟩ := h.held d hd
        refine ⟨r, ?_, hstate, htoken, hat⟩
        change (w.db.claimDue now.val draw).job d.batchId = some r
        rw [job_claimDue, hr, Option.map_some, if_neg]
        rw [due_iff, hstate]
        exact fun e => JobState.noConfusion e.1
      · obtain ⟨hd, r, hr, hdue⟩ := mem_deliveries.mp hd
        refine ⟨claimedAs now.val draw r, ?_, rfl, ?_, ?_⟩
        · change (w.db.claimDue now.val draw).job d.batchId = _
          rw [job_claimDue, hr, Option.map_some, if_pos hdue]
        · rw [hd]
          exact congrArg (fun b => some (draw b)) (job_batchId hr)
        · rw [hd]
          rfl
    claimed := by
      intro b r hr hstate
      obtain ⟨r₀, hr₀, ⟨-, -, hd⟩ | ⟨-, rfl⟩⟩ := row_claim hr
      · exact ⟨_, List.mem_append_right _ hd, rfl⟩
      · obtain ⟨d, hd, hb⟩ := h.claimed b r hr₀ hstate
        exact ⟨d, List.mem_append_left _ hd, hb⟩
    unique := by
      intro b b' r r' token hr hr' ht ht'
      obtain ⟨r₀, hr₀, ⟨-, rfl, hd⟩ | ⟨-, rfl⟩⟩ := row_claim hr
      · -- the token of the first row was drawn just now
        have ht : draw b = token := by
          rw [← job_batchId hr₀]
          exact Option.some.inj ht
        rw [ht] at hd
        obtain ⟨r₀', hr₀', ⟨-, rfl, hd'⟩ | ⟨-, rfl⟩⟩ := row_claim hr'
        · have ht' : draw b' = token := by
            rw [← job_batchId hr₀']
            exact Option.some.inj ht'
          rw [ht'] at hd'
          -- both tokens are new: one token, one delivery
          have heq := List.inj_on_of_nodup_map hnodup hd hd' rfl
          exact congrArg Delivery.batchId heq
        · -- one is new and one is old
          exact absurd (h.issued b' _ token hr₀' ht') (hnew b token hd)
      · obtain ⟨r₀', hr₀', ⟨-, rfl, hd'⟩ | ⟨-, rfl⟩⟩ := row_claim hr'
        · have ht' : draw b' = token := by
            rw [← job_batchId hr₀']
            exact Option.some.inj ht'
          rw [ht'] at hd'
          exact absurd (h.issued b _ token hr₀ ht) (hnew b' token hd')
        · exact h.unique b b' _ _ token hr₀ hr₀' ht ht'
    issued := by
      intro b r token hr ht
      rw [hissued]
      obtain ⟨r₀, hr₀, ⟨-, rfl, hd⟩ | ⟨-, rfl⟩⟩ := row_claim hr
      · have ht : draw b = token := by
          rw [← job_batchId hr₀]
          exact Option.some.inj ht
        exact List.mem_append_right _ (List.mem_map.mpr ⟨_, hd, ht⟩)
      · exact List.mem_append_left _ (h.issued b _ token hr₀ ht)
    attempts := by
      intro b r hr
      obtain ⟨r₀, hr₀, ⟨-, rfl, -⟩ | ⟨-, rfl⟩⟩ := row_claim hr
      · exact h.attempts b r₀ hr₀
      · exact h.attempts b r hr₀
    body := by
      intro b r hr
      obtain ⟨r₀, hr₀, ⟨-, rfl, -⟩ | ⟨-, rfl⟩⟩ := row_claim hr
      · exact h.body b r₀ hr₀
      · exact h.body b r hr₀
    dead := h.dead }

/-! ## Ack and nack -/

/-- Every receipt is live, or stale. -/
theorem live_or_stale (w : Watched) (receipt : String) :
    (∃ d ∈ w.ledger.live, d.token = receipt) ∨ ∀ d ∈ w.ledger.live, d.token ≠ receipt := by
  by_cases hex : ∃ d ∈ w.ledger.live, d.token = receipt
  · exact .inl hex
  · right
    intro d hd ht
    exact hex ⟨d, hd, ht⟩

/-- The live deliveries other than the one just ended are of other batches. -/
theorem batch_ne_of_remaining (h : QueueInv source w) {d d' : Delivery} (hd : d ∈ w.ledger.live)
    (hd' : d' ∈ w.ledger.live.filter fun e => e.token ≠ d.token) :
    d' ∈ w.ledger.live ∧ d.batchId ≠ d'.batchId := by
  obtain ⟨hmem, hne⟩ := List.mem_filter.mp hd'
  refine ⟨hmem, fun hb => of_decide_eq_true hne ?_⟩
  rw [h.live_unique hd hmem hb]

theorem mem_remaining (h : QueueInv source w) {d d' : Delivery} (hd : d ∈ w.ledger.live)
    (hd' : d' ∈ w.ledger.live) (hb : d.batchId ≠ d'.batchId) :
    d' ∈ w.ledger.live.filter fun e => e.token ≠ d.token := by
  refine List.mem_filter.mpr ⟨hd', decide_eq_true fun ht => hb ?_⟩
  rw [h.live_token_inj hd hd' ht.symm]

theorem ack (h : QueueInv source w) (receipt : String) : QueueInv source (w.ack receipt) := by
  rcases live_or_stale w receipt with ⟨d, hd, rfl⟩ | hstale
  swap
  · rw [h.ack_of_stale hstale]
    exact h
  -- the row of the batch is gone, and the others are what they were
  have hrow : ∀ {b r}, (w.ack d.token).db.job b = some r → d.batchId ≠ b ∧ w.db.job b = some r := by
    intro b r hr
    rw [h.job_ack_of_live hd] at hr
    by_cases hb : d.batchId = b
    · rw [if_pos hb] at hr
      cases hr
    · rw [if_neg hb] at hr
      exact ⟨hb, hr⟩
  exact {
    held := by
      intro d' hd'
      obtain ⟨hlive, hb⟩ := h.batch_ne_of_remaining hd hd'
      obtain ⟨r, hr, hrest⟩ := h.held d' hlive
      exact ⟨r, by rw [h.job_ack_of_live hd, if_neg hb, hr], hrest⟩
    claimed := by
      intro b r hr hstate
      obtain ⟨hb, hr⟩ := hrow hr
      obtain ⟨d', hd', rfl⟩ := h.claimed b r hr hstate
      exact ⟨d', h.mem_remaining hd hd' hb, rfl⟩
    unique := fun b b' r r' token hr hr' => h.unique b b' r r' token (hrow hr).2 (hrow hr').2
    issued := fun b r token hr => h.issued b r token (hrow hr).2
    attempts := fun b r hr => h.attempts b r (hrow hr).2
    body := fun b r hr => h.body b r (hrow hr).2
    dead := h.dead }

/-- The count of failures of each batch after a nack with a live receipt. -/
theorem nacks_nack_of_live (h : QueueInv source w) {d : Delivery} (hd : d ∈ w.ledger.live)
    (b : String) :
    (w.ledger.nack d.token).nacks b =
      if d.batchId = b then w.ledger.nacks b + 1 else w.ledger.nacks b := by
  change (if ∃ e ∈ w.ledger.live, e.token = d.token ∧ e.batchId = b then w.ledger.nacks b + 1
    else w.ledger.nacks b) = _
  by_cases hb : d.batchId = b
  · rw [if_pos hb, if_pos ⟨d, hd, rfl, hb⟩]
  · rw [if_neg hb, if_neg]
    rintro ⟨d', hd', ht, hb'⟩
    exact hb (by rw [← hb', h.live_token_inj hd hd' ht.symm])

/-- The row of a delivery that failed, while attempts are left. -/
theorem row_nack (h : QueueInv source w) {d : Delivery} (hd : d ∈ w.ledger.live) {now : Millis}
    {error b : String} {r : BuildJobRow}
    (hr : (w.nack source now d.token error).db.job b = some r) :
    (d.batchId = b ∧ ∃ r₀, w.db.job b = some r₀ ∧ source.exhausted r₀ = false ∧
      r = postponed (newAttempts r₀) (source.retryAt now r₀) r₀) ∨
    (d.batchId ≠ b ∧ w.db.job b = some r) := by
  rw [h.job_nack_of_live hd] at hr
  by_cases hb : d.batchId = b
  · left
    rw [if_pos hb] at hr
    obtain ⟨r₀, hr₀, hafter⟩ := Option.bind_eq_some_iff.mp hr
    -- a row whose attempts are used up is not there any more
    unfold afterFailure at hafter
    by_cases hex : source.exhausted r₀ = true
    · rw [if_pos hex] at hafter
      cases hafter
    · rw [if_neg hex] at hafter
      exact ⟨hb, r₀, hr₀, by simpa using hex, (Option.some.inj hafter).symm⟩
  · rw [if_neg hb] at hr
    exact .inr ⟨hb, hr⟩

theorem nack (h : QueueInv source w) (now : Millis) (receipt error : String) :
    QueueInv source (w.nack source now receipt error) := by
  rcases live_or_stale w receipt with ⟨d, hd, rfl⟩ | hstale
  swap
  · rw [h.nack_of_stale hstale]
    exact h
  have hnacks : ∀ b, (w.nack source now d.token error).ledger.nacks b =
      if d.batchId = b then w.ledger.nacks b + 1 else w.ledger.nacks b := h.nacks_nack_of_live hd
  exact {
    held := by
      intro d' hd'
      obtain ⟨hlive, hb⟩ := h.batch_ne_of_remaining hd hd'
      obtain ⟨r, hr, hrest⟩ := h.held d' hlive
      exact ⟨r, by rw [h.job_nack_of_live hd, if_neg hb, hr], hrest⟩
    claimed := by
      intro b r hr hstate
      rcases h.row_nack hd hr with ⟨-, r₀, -, -, rfl⟩ | ⟨hb, hr⟩
      · cases hstate
      · obtain ⟨d', hd', rfl⟩ := h.claimed b r hr hstate
        exact ⟨d', h.mem_remaining hd hd' hb, rfl⟩
    unique := by
      intro b b' r r' token hr hr' ht ht'
      rcases h.row_nack hd hr with ⟨-, r₀, -, -, rfl⟩ | ⟨-, hr⟩
      · cases ht
      rcases h.row_nack hd hr' with ⟨-, r₀, -, -, rfl⟩ | ⟨-, hr'⟩
      · cases ht'
      exact h.unique b b' r r' token hr hr' ht ht'
    issued := by
      intro b r token hr ht
      rcases h.row_nack hd hr with ⟨-, r₀, -, -, rfl⟩ | ⟨-, hr⟩
      · cases ht
      exact h.issued b r token hr ht
    attempts := by
      intro b r hr
      rw [hnacks]
      rcases h.row_nack hd hr with ⟨hb, r₀, hr₀, hex, rfl⟩ | ⟨hb, hr⟩
      · rw [if_pos hb]
        obtain ⟨-, hlt⟩ := h.attempts b r₀ hr₀
        -- the row is still there, so this failure was not its last
        have hne : w.ledger.nacks b + 1 ≠ source.maxAttempts := by
          intro e
          rw [(h.exhausted_iff hr₀).mpr e] at hex
          cases hex
        exact ⟨h.newAttempts_eq hr₀, by omega⟩
      · rw [if_neg hb]
        exact h.attempts b r hr
    body := by
      intro b r hr
      rcases h.row_nack hd hr with ⟨-, r₀, hr₀, -, rfl⟩ | ⟨-, hr⟩
      · exact h.body b r₀ hr₀
      · exact h.body b r hr
    dead := by
      intro b dead hdead
      obtain ⟨r, hr, -⟩ := h.held d hd
      rw [h.dead_nack_of_live hd hr] at hdead
      -- a job that dies now has failed as often as it may
      by_cases hcase : source.exhausted r = true ∧ d.batchId = b
      · rw [if_pos hcase] at hdead
        cases hdead
        change newAttempts r = _
        rw [h.newAttempts_eq hr, ← (h.exhausted_iff hr).mp hcase.1]
        rfl
      · rw [if_neg hcase] at hdead
        exact h.dead b dead hdead }

/-! ## Every call, every run -/

theorem step (h : QueueInv source w) (event : QueueCall × Faults)
    (hfresh : (w.step source event).ledger.issued.Nodup) : QueueInv source (w.step source event) := by
  -- a call that failed has changed nothing
  rcases Watched.step_cases source w event with heq | heq
  · rw [heq]
    exact h
  rw [heq] at hfresh ⊢
  obtain ⟨call, faults⟩ := event
  cases call with
  | enqueue batch => exact h.enqueue batch
  | appendAndEnqueue walKey walBytes batch => exact (h.putSegment _ _).enqueue batch
  | receive now draw => exact (h.reclaim now).claim hfresh
  | ack receipt => exact h.ack receipt
  | nack now receipt error => exact h.nack now receipt error

end QueueInv

/-- Deliveries are only ever added to those opened. -/
theorem opened_step (source : SqliteBuildJobSource) (w : Watched) (event : QueueCall × Faults) :
    w.ledger.opened <+: (w.step source event).ledger.opened := by
  rcases Watched.step_cases source w event with heq | heq
  · exact ⟨[], by rw [heq, List.append_nil]⟩
  rw [heq]
  obtain ⟨call, faults⟩ := event
  cases call with
  | receive now draw => exact List.prefix_append _ _
  | _ => exact List.prefix_refl _

/-- The queue after some calls on a fresh database. -/
def queueAfter (source : SqliteBuildJobSource) (calls : List (QueueCall × Faults)) : Watched :=
  run (Watched.step source) .init calls

theorem nodup_issued_of_step (source : SqliteBuildJobSource) (w : Watched)
    (event : QueueCall × Faults) (h : (w.step source event).ledger.issued.Nodup) :
    w.ledger.issued.Nodup :=
  ((opened_step source w event).map _).sublist.nodup h

/-- Tokens that are distinct at the end of a run were distinct at its start. -/
theorem nodup_issued_of_run {source : SqliteBuildJobSource} {w : Watched}
    (calls : List (QueueCall × Faults))
    (h : (run (Watched.step source) w calls).ledger.issued.Nodup) : w.ledger.issued.Nodup :=
  good_of_run (fun w : Watched => w.ledger.issued.Nodup) (nodup_issued_of_step source) calls h

/-- Rows and ledger agree after every run in which no token is drawn twice. -/
theorem queueInv_run {source : SqliteBuildJobSource} {w : Watched} (h : QueueInv source w)
    (calls : List (QueueCall × Faults))
    (hfresh : (run (Watched.step source) w calls).ledger.issued.Nodup) :
    QueueInv source (run (Watched.step source) w calls) :=
  run_invariant_of_good (QueueInv source) (fun w => w.ledger.issued.Nodup) (nodup_issued_of_step source)
    (fun _ event hw => hw.step event) h calls hfresh

/-- A short life of one job: it fails once, is delivered again and is settled. -/
def retriedBatch : QueueBatch where
  batchId := "batch-1"
  walKey := "wal/2026/07/14/batch-1.jsonl"
  acceptedCount := 1
  walEventIds := ["batch-1-000001"]

def retriedJob : List (QueueCall × Faults) :=
  [(.enqueue retriedBatch, .none),
    (.receive ⟨1000, by decide, by decide⟩ (fun _ => "9f86d081884c7d659a2feaa0c55ad015"), .none),
    (.nack ⟨2000, by decide, by decide⟩ "9f86d081884c7d659a2feaa0c55ad015" "build failed", .none),
    (.receive ⟨3000, by decide, by decide⟩ (fun _ => "a3bf4f1b2b0b822cd15d6c15b0f00a08"), .none),
    (.ack "a3bf4f1b2b0b822cd15d6c15b0f00a08", .none)]

end LTSearch
