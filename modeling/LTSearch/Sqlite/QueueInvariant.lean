/-
# LTSearch.Sqlite.QueueInvariant -- the rows of the queue agree with the ledger

The invariant says that the claimed rows are exactly the live deliveries, that no two rows carry
one token, and what each row's counter and body are.  It is kept by every call as long as no token
is drawn twice, which is asked of the whole run at once: `issued` lists every token handed out, and
it has no duplicates.
-/
import LTSearch.Sqlite.Ledger

namespace LTSearch

open LTSearch.Foundation

/-! ## Each change, row by row -/

section Rows

variable {db : LocalDb} {b : String}

theorem job_batchId {r : BuildJobRow} (h : db.job b = some r) : r.batchId = b :=
  Table.key_of_get h

theorem mem_rows_iff {r : BuildJobRow} : r ∈ db.buildJobs.rows ↔ db.job r.batchId = some r :=
  Table.mem_iff_get

theorem job_reclaimExpired (cutoff : Int) :
    (db.reclaimExpired cutoff).job b = (db.job b).map fun r =>
      if leaseExpired cutoff r then released r else r :=
  Table.get_updateWhere db.buildJobs (leaseExpired cutoff) released (fun _ => rfl) b

theorem job_claimDue (now : Int) (draw : String → String) :
    (db.claimDue now draw).job b = (db.job b).map fun r =>
      if due now r then claimedAs now draw r else r :=
  Table.get_updateWhere db.buildJobs (due now) (claimedAs now draw) (fun _ => rfl) b

theorem job_settle (token : String) :
    (db.settle token).job b = (db.job b).filter fun r => !holds token r :=
  Table.get_deleteWhere _ _ _

theorem job_dropToken (token : String) :
    (db.dropToken token).job b = (db.job b).filter fun r => !decide (r.claimToken = some token) :=
  Table.get_deleteWhere _ _ _

theorem job_postpone (token : String) (attempts availableAt : Int) :
    (db.postpone token attempts availableAt).job b = (db.job b).map fun r =>
      if decide (r.claimToken = some token) = true then postponed attempts availableAt r else r :=
  Table.get_updateWhere db.buildJobs _ (postponed attempts availableAt) (fun _ => rfl) b

theorem dead_putDead (dead : DeadJobRow) :
    (db.putDead dead).dead b =
      if dead.batchId = b then some { dead with batchId := b } else db.dead b := by
  unfold LocalDb.dead LocalDb.putDead
  rw [Table.get_upsert]
  by_cases hb : dead.batchId = b
  · subst hb
    rw [if_pos rfl, if_pos rfl]
    cases he : db.deadJobs.get dead.batchId with
    | none => rfl
    | some e =>
        have hkey := Table.key_of_get he
        simp [hkey]
  · rw [if_neg hb, if_neg hb]

theorem mem_deliveries {now : Int} {draw : String → String} {d : Delivery} :
    d ∈ db.deliveries now draw ↔
      d = ⟨draw d.batchId, d.batchId, now⟩ ∧ ∃ r, db.job d.batchId = some r ∧ due now r = true := by
  unfold LocalDb.deliveries
  rw [List.mem_map]
  constructor
  · rintro ⟨r, hr, rfl⟩
    obtain ⟨hmem, hdue⟩ := List.mem_filter.mp hr
    exact ⟨rfl, r, mem_rows_iff.mp hmem, hdue⟩
  · rintro ⟨hd, r, hr, hdue⟩
    have hkey := job_batchId hr
    refine ⟨r, List.mem_filter.mpr ⟨?_, hdue⟩, ?_⟩
    · rw [mem_rows_iff, hkey, hr]
    · rw [hkey, ← hd]

theorem holds_iff {token : String} {r : BuildJobRow} :
    holds token r = true ↔ r.claimToken = some token ∧ r.state = .claimed := by
  simp [holds]

theorem due_iff {now : Int} {r : BuildJobRow} :
    due now r = true ↔ r.state = .ready ∧ r.availableAt ≤ now := by
  simp [due]

theorem leaseExpired_iff {cutoff : Int} {r : BuildJobRow} :
    leaseExpired cutoff r = true ↔
      r.state = .claimed ∧ ∃ t, r.claimedAt = some t ∧ t ≤ cutoff := by
  cases hc : r.claimedAt <;> simp [leaseExpired, hc]

end Rows

/-- `i64` subtraction does not wrap on a clock reading and a lease. -/
theorem wrapI64_sub_lease (source : SqliteBuildJobSource) (now : Millis) :
    wrapI64 (now.val - source.leaseMs) = now.val - source.leaseMs := by
  have h1 := now.nonneg
  have h2 := now.lt
  have h3 := source.leaseMs_nonneg
  have h4 := source.leaseMs_lt
  exact Int.bmod_eq_of_le (by omega) (by omega)

/-! ## The invariant -/

/-- Rows and ledger agree. -/
structure QueueInv (source : SqliteBuildJobSource) (w : Watched) : Prop where
  /-- a live delivery holds the row of its batch, claimed under its token -/
  held : ∀ d ∈ w.ledger.live, ∃ r, w.db.job d.batchId = some r ∧ r.state = .claimed ∧
    r.claimToken = some d.token ∧ r.claimedAt = some d.claimedAt
  /-- a claimed row is held by a live delivery -/
  claimed : ∀ b r, w.db.job b = some r → r.state = .claimed → ∃ d ∈ w.ledger.live, d.batchId = b
  /-- no two rows carry one token, and every token was handed out -/
  unique : ∀ b b' r r' token, w.db.job b = some r → w.db.job b' = some r' →
    r.claimToken = some token → r'.claimToken = some token → b = b'
  issued : ∀ b r token, w.db.job b = some r → r.claimToken = some token →
    token ∈ w.ledger.issued
  /-- the counter of a row is the number of failed deliveries, and attempts are left -/
  attempts : ∀ b r, w.db.job b = some r →
    r.attempts = w.ledger.nacks b ∧ w.ledger.nacks b < source.maxAttempts
  /-- the body is that of the batch last enqueued under the row's id -/
  body : ∀ b r, w.db.job b = some r →
    ∃ batch, w.ledger.latest b = some batch ∧ r.body = batch.toJson
  /-- dead jobs used up their attempts -/
  dead : ∀ b d, w.db.dead b = some d → d.attempts = source.maxAttempts

namespace QueueInv

variable {source : SqliteBuildJobSource} {w : Watched}

/-- The row of a live delivery. -/
theorem row_of_live (h : QueueInv source w) {d : Delivery} (hd : d ∈ w.ledger.live) {r : BuildJobRow}
    (hr : w.db.job d.batchId = some r) :
    r.state = .claimed ∧ r.claimToken = some d.token ∧ r.claimedAt = some d.claimedAt := by
  obtain ⟨r', hr', hrest⟩ := h.held d hd
  rw [hr] at hr'
  cases hr'
  exact hrest

/-- At most one delivery per batch is live. -/
theorem live_unique (h : QueueInv source w) {d d' : Delivery} (hd : d ∈ w.ledger.live)
    (hd' : d' ∈ w.ledger.live) (hb : d.batchId = d'.batchId) : d = d' := by
  obtain ⟨r, hr, -, htoken, hat⟩ := h.held d hd
  rw [hb] at hr
  obtain ⟨-, htoken', hat'⟩ := h.row_of_live hd' hr
  rw [htoken] at htoken'
  rw [hat] at hat'
  cases d
  cases d'
  simp_all

/-- At most one delivery per token is live. -/
theorem live_token_inj (h : QueueInv source w) {d d' : Delivery} (hd : d ∈ w.ledger.live)
    (hd' : d' ∈ w.ledger.live) (ht : d.token = d'.token) : d = d' := by
  obtain ⟨r, hr, -, htoken, -⟩ := h.held d hd
  obtain ⟨r', hr', -, htoken', -⟩ := h.held d' hd'
  exact h.live_unique hd hd' (h.unique _ _ _ _ _ hr hr' htoken (ht ▸ htoken'))

/-- A row that answers to a token answers to a live delivery. -/
theorem live_of_holds (h : QueueInv source w) {b token : String} {r : BuildJobRow}
    (hr : w.db.job b = some r) (hh : holds token r = true) :
    ∃ d ∈ w.ledger.live, d.token = token ∧ d.batchId = b := by
  obtain ⟨htoken, hstate⟩ := holds_iff.mp hh
  obtain ⟨d, hd, rfl⟩ := h.claimed b r hr hstate
  obtain ⟨-, htoken', -⟩ := h.row_of_live hd hr
  rw [htoken] at htoken'
  cases htoken'
  exact ⟨d, hd, rfl, rfl⟩

/-- `ack` and `nack` look rows up by token: with a stale token they find nothing. -/
theorem not_holds_of_stale (h : QueueInv source w) {token : String}
    (hstale : ∀ d ∈ w.ledger.live, d.token ≠ token) :
    ∀ r ∈ w.db.buildJobs.rows, holds token r = false := by
  intro r hr
  by_contra hh
  obtain ⟨d, hd, ht, -⟩ := h.live_of_holds (mem_rows_iff.mp hr) (by simpa using hh)
  exact hstale d hd ht

/-- With a live token they find its row. -/
theorem find_of_live (h : QueueInv source w) {d : Delivery} (hd : d ∈ w.ledger.live) :
    w.db.buildJobs.rows.find? (holds d.token) = w.db.job d.batchId := by
  obtain ⟨r, hr, hstate, htoken, -⟩ := h.held d hd
  have hmem : r ∈ w.db.buildJobs.rows := (Table.get_eq_some_iff.mp hr).1
  have hsome : (w.db.buildJobs.rows.find? (holds d.token)).isSome :=
    List.find?_isSome.mpr ⟨r, hmem, holds_iff.mpr ⟨htoken, hstate⟩⟩
  obtain ⟨e, he⟩ := Option.isSome_iff_exists.mp hsome
  have hje := mem_rows_iff.mp (List.mem_of_find?_eq_some he)
  obtain ⟨htoken', -⟩ := holds_iff.mp (List.find?_some he)
  have hb := h.unique _ _ _ _ _ hr hje htoken htoken'
  rw [he, hb, hje]

/-- A token is on the row of its live delivery and on no other. -/
theorem token_iff_of_live (h : QueueInv source w) {d : Delivery} (hd : d ∈ w.ledger.live)
    {b : String} {r : BuildJobRow} (hr : w.db.job b = some r) :
    r.claimToken = some d.token ↔ d.batchId = b := by
  constructor
  · intro htoken
    obtain ⟨r', hr', -, htoken', -⟩ := h.held d hd
    exact h.unique _ _ _ _ _ hr' hr htoken' htoken
  · rintro rfl
    exact (h.row_of_live hd hr).2.1

/-! ## Attempts -/

/-- Counting one more failed delivery neither wraps nor is cut by the cast to `u32`. -/
theorem newAttempts_eq (h : QueueInv source w) {b : String} {r : BuildJobRow}
    (hr : w.db.job b = some r) : newAttempts r = w.ledger.nacks b + 1 := by
  obtain ⟨hattempts, hlt⟩ := h.attempts b r hr
  have hmax := source.maxAttempts_lt
  unfold newAttempts wrapI64
  rw [hattempts]
  exact Int.bmod_eq_of_le (by omega) (by omega)

theorem exhausted_iff (h : QueueInv source w) {b : String} {r : BuildJobRow}
    (hr : w.db.job b = some r) :
    source.exhausted r = true ↔ w.ledger.nacks b + 1 = source.maxAttempts := by
  obtain ⟨-, hlt⟩ := h.attempts b r hr
  have hmax := source.maxAttempts_lt
  unfold SqliteBuildJobSource.exhausted
  rw [h.newAttempts_eq hr, decide_eq_true_iff, Int.emod_eq_of_lt (by omega) (by omega)]
  omega

/-! ## Stale receipts do nothing -/

theorem ack_of_stale (h : QueueInv source w) {token : String}
    (hstale : ∀ d ∈ w.ledger.live, d.token ≠ token) : w.ack token = w := by
  have hdb : w.db.settle token = w.db := by
    unfold LocalDb.settle
    rw [Table.deleteWhere_of_none (h.not_holds_of_stale hstale)]
  have hlive : w.ledger.live.filter (fun d => d.token ≠ token) = w.ledger.live :=
    List.filter_eq_self.mpr fun d hd => decide_eq_true (hstale d hd)
  have hnone : w.ledger.live.filter (fun d => d.token = token) = [] :=
    List.filter_eq_nil_iff.mpr fun d hd => by simpa using hstale d hd
  unfold Watched.ack Ledger.ack
  rw [hdb, hlive, hnone, List.append_nil]

theorem failDelivery_of_stale (h : QueueInv source w) {token : String}
    (hstale : ∀ d ∈ w.ledger.live, d.token ≠ token) (now : Millis) (error : String) :
    w.db.failDelivery source now token error = w.db := by
  have hfind : w.db.buildJobs.rows.find? (holds token) = none :=
    List.find?_eq_none.mpr fun r hr => by simp [h.not_holds_of_stale hstale r hr]
  unfold LocalDb.failDelivery
  rw [hfind]

theorem nack_of_stale (h : QueueInv source w) {token : String}
    (hstale : ∀ d ∈ w.ledger.live, d.token ≠ token) (now : Millis) (error : String) :
    w.nack source now token error = w := by
  have hlive : w.ledger.live.filter (fun d => d.token ≠ token) = w.ledger.live :=
    List.filter_eq_self.mpr fun d hd => decide_eq_true (hstale d hd)
  have hnacks : ∀ b, ¬∃ d ∈ w.ledger.live, d.token = token ∧ d.batchId = b := by
    rintro b ⟨d, hd, ht, -⟩
    exact hstale d hd ht
  unfold Watched.nack Ledger.nack
  rw [h.failDelivery_of_stale hstale, hlive]
  simp only [hnacks, if_false]

/-! ## A live receipt settles its own row -/

theorem job_ack_of_live (h : QueueInv source w) {d : Delivery} (hd : d ∈ w.ledger.live)
    (b : String) :
    (w.ack d.token).db.job b = if d.batchId = b then none else w.db.job b := by
  change (w.db.settle d.token).job b = _
  rw [job_settle]
  cases hr : w.db.job b with
  | none => simp
  | some r =>
      by_cases hb : d.batchId = b
      · subst hb
        obtain ⟨hstate, htoken, -⟩ := h.row_of_live hd hr
        simp [holds, hstate, htoken]
      · have htoken : r.claimToken ≠ some d.token := fun ht =>
          hb ((h.token_iff_of_live hd hr).mp ht)
        simp [holds, htoken, hb]

/-- What becomes of the row of a delivery that failed. -/
def afterFailure (source : SqliteBuildJobSource) (now : Millis) (r : BuildJobRow) :
    Option BuildJobRow :=
  if source.exhausted r then none
  else some (postponed (newAttempts r) (source.retryAt now r) r)

theorem job_nack_of_live (h : QueueInv source w) {d : Delivery} (hd : d ∈ w.ledger.live)
    (now : Millis) (error : String) (b : String) :
    (w.nack source now d.token error).db.job b =
      if d.batchId = b then (w.db.job b).bind (afterFailure source now) else w.db.job b := by
  change (w.db.failDelivery source now d.token error).job b = _
  obtain ⟨r, hr, -⟩ := h.held d hd
  have hfind := h.find_of_live hd
  rw [hr] at hfind
  unfold LocalDb.failDelivery
  rw [hfind]
  by_cases hex : source.exhausted r = true
  · simp only [if_pos hex]
    rw [job_dropToken]
    change (w.db.job b).filter _ = _
    by_cases hb : d.batchId = b
    · subst hb
      have htoken := (h.token_iff_of_live hd hr).mpr rfl
      simp [hr, htoken, afterFailure, hex]
    · rw [if_neg hb]
      cases hr' : w.db.job b with
      | none => rfl
      | some r' =>
          have htoken : r'.claimToken ≠ some d.token := fun ht =>
            hb ((h.token_iff_of_live hd hr').mp ht)
          simp [htoken]
  · simp only [if_neg hex]
    rw [job_postpone]
    by_cases hb : d.batchId = b
    · subst hb
      have htoken := (h.token_iff_of_live hd hr).mpr rfl
      simp [hr, htoken, afterFailure, hex]
    · rw [if_neg hb]
      cases hr' : w.db.job b with
      | none => rfl
      | some r' =>
          have htoken : r'.claimToken ≠ some d.token := fun ht =>
            hb ((h.token_iff_of_live hd hr').mp ht)
          simp [htoken]

theorem dead_nack_of_live (h : QueueInv source w) {d : Delivery} (hd : d ∈ w.ledger.live)
    {r : BuildJobRow} (hr : w.db.job d.batchId = some r) (now : Millis) (error : String)
    (b : String) :
    (w.nack source now d.token error).db.dead b =
      if source.exhausted r = true ∧ d.batchId = b then some (deadRow now error r)
      else w.db.dead b := by
  change (w.db.failDelivery source now d.token error).dead b = _
  have hfind := h.find_of_live hd
  rw [hr] at hfind
  unfold LocalDb.failDelivery
  rw [hfind]
  by_cases hex : source.exhausted r = true
  · simp only [if_pos hex]
    change (w.db.putDead (deadRow now error r)).dead b = _
    rw [dead_putDead]
    have hkey : (deadRow now error r).batchId = d.batchId := job_batchId hr
    by_cases hb : d.batchId = b
    · subst hb
      rw [if_pos hkey, if_pos ⟨hex, rfl⟩, ← hkey]
    · rw [if_neg (fun e => hb (hkey ▸ e)), if_neg (fun e => hb e.2)]
  · simp only [if_neg hex]
    rw [if_neg (fun e => hex e.1)]
    rfl

end QueueInv

end LTSearch
