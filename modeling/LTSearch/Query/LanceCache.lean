/-
# LTSearch.Query.LanceCache -- the accounting of local shards under concurrent searches

A search takes the lock of the cache three times for each shard: to begin its version, to look for a
size, and to record the access.  The queries in between are slow, so a search of an old version may
record when the cache has been reset for a new one.  The shards are those of the current version as
long as no such late access is recorded.  The counters are `u64`, whose additions wrap in a release
build: the bytes are the sum of the sizes as long as that sum fits.
-/
import LTSearch.Foundation.Run
import LTSearch.Foundation.Table

namespace LTSearch

open LTSearch.Foundation

/-! ## The cache -/

/-- An entry of `seen_shards`. -/
structure SeenShard where
  path : String
  size : UInt64

/-- `LocalLanceCache` -/
structure LocalLanceCache where
  seenShards : Table SeenShard.path
  hitCount : UInt64
  missCount : UInt64
  attemptedVersion : Option UInt64
  currentVersion : Option UInt64
  bytesUsed : UInt64

namespace LocalLanceCache

/-- `default` -/
def empty : LocalLanceCache := ⟨∅, 0, 0, none, none, 0⟩

/-- `reset_for_attempt` -/
def resetForAttempt (cache : LocalLanceCache) (versionId : UInt64) : LocalLanceCache :=
  { cache with
    seenShards := ∅, hitCount := 0, missCount := 0, bytesUsed := 0
    attemptedVersion := some versionId, currentVersion := none }

/-- `publish_version` -/
def publishVersion (cache : LocalLanceCache) (versionId : UInt64) : LocalLanceCache :=
  { cache with attemptedVersion := some versionId, currentVersion := some versionId }

/-- `begin_version_attempt` -/
def beginVersionAttempt (cache : LocalLanceCache) (versionId : UInt64) : LocalLanceCache :=
  if cache.attemptedVersion ≠ some versionId then cache.resetForAttempt versionId else cache

/-- The first part of `shard_size_bytes`, under the lock. -/
def knownSize (cache : LocalLanceCache) (versionId : UInt64) (path : String) : Option UInt64 :=
  if cache.attemptedVersion = some versionId then (cache.seenShards.get path).map (·.size) else none

/-- `record_shard_access` -/
def recordShardAccess (cache : LocalLanceCache) (path : String) (versionId : UInt64)
    (shardSize : UInt64) : LocalLanceCache :=
  let cache := cache.publishVersion versionId
  match cache.seenShards.get path with
  | some _ => { cache with hitCount := cache.hitCount + 1 }
  | none =>
      { cache with
        missCount := cache.missCount + 1
        bytesUsed := cache.bytesUsed + shardSize
        seenShards := cache.seenShards.put ⟨path, shardSize⟩ }

end LocalLanceCache

/-! ## Concurrent searches -/

/-- Where a search is. -/
inductive Phase where
  | begin
  | nextShard
  /-- the tree of the shard is measured, without the lock -/
  | inspecting (path : String)
  | querying (path : String) (size : UInt64)
  | recording (path : String) (size : UInt64)
  | finished

/-- `search_active_manifest`, with the local paths of the shards it has not come to. -/
structure ManifestSearch where
  versionId : UInt64
  shards : List String
  phase : Phase

/-- The cache, who recorded what is in it since the last reset, and the searches. -/
structure SearcherState where
  cache : LocalLanceCache
  recordedBy : List (String × UInt64)
  searches : List ManifestSearch

namespace SearcherState

/-- No search so far. -/
def initial : SearcherState := ⟨.empty, [], []⟩

/-- What happens next: a search begins, or one makes its next step.  The outcome of a step is what the
world does: nothing where a path does not resolve, a tree cannot be measured or a query fails, and
otherwise a number, which counts for the size of a tree only. -/
inductive Choice where
  | start (versionId : UInt64) (shards : List String)
  | advance (search : Nat) (outcome : Option UInt64)

/-- The search after a step. -/
def put (state : SearcherState) (i : Nat) (search : ManifestSearch) (phase : Phase) : SearcherState :=
  { state with searches := state.searches.set i { search with phase } }

/-- The next step of a search. -/
def advance (state : SearcherState) (i : Nat) (search : ManifestSearch) (outcome : Option UInt64) :
    SearcherState :=
  match search.phase with
  | .begin =>
      { state with
        cache := state.cache.beginVersionAttempt search.versionId
        recordedBy := if state.cache.attemptedVersion ≠ some search.versionId then []
          else state.recordedBy }.put i search .nextShard
  | .nextShard =>
      match search.shards with
      | [] => state.put i search .finished
      | path :: shards =>
          match outcome with
          | none => state.put i search .finished
          | some _ =>
              let search := { search with shards }
              match state.cache.knownSize search.versionId path with
              | some size => state.put i search (.querying path size)
              | none => state.put i search (.inspecting path)
  | .inspecting path =>
      match outcome with
      | none => state.put i search .finished
      | some size => state.put i search (.querying path size)
  | .querying path size =>
      match outcome with
      | none => state.put i search .finished
      | some _ => state.put i search (.recording path size)
  | .recording path size =>
      { state with
        cache := state.cache.recordShardAccess path search.versionId size
        recordedBy := if (state.cache.seenShards.get path).isSome then state.recordedBy
          else state.recordedBy ++ [(path, search.versionId)] }.put i search .nextShard
  | .finished => state

/-- One step of the whole. -/
def step (state : SearcherState) : Choice → SearcherState
  | .start versionId shards =>
      { state with searches := state.searches ++ [{ versionId, shards, phase := .begin }] }
  | .advance i outcome =>
      match state.searches[i]? with
      | none => state
      | some search => state.advance i search outcome

/-- The sizes of the seen shards. -/
def seenBytes (state : SearcherState) : Nat := (state.cache.seenShards.rows.map (·.size.toNat)).sum

/-- The accounting is consistent. -/
structure Consistent (state : SearcherState) : Prop where
  bytes : state.cache.bytesUsed.toNat = state.seenBytes
  versions : ∀ versionId, state.cache.currentVersion = some versionId →
    ∀ shard ∈ state.cache.seenShards.rows, (shard.path, versionId) ∈ state.recordedBy

/-- An access is recorded under the version the cache is at, or into an empty cache. -/
def OnTime (state : SearcherState) : Choice → Prop
  | .start _ _ => True
  | .advance i _ => ∀ search path size, state.searches[i]? = some search →
      search.phase = .recording path size →
      state.cache.attemptedVersion = some search.versionId ∨ state.cache.seenShards.rows = []

/-- A shard that is recorded for the first time brings the sum of the sizes to less than `2^64`. -/
def Fits (state : SearcherState) : Choice → Prop
  | .start _ _ => True
  | .advance i _ => ∀ search path size, state.searches[i]? = some search →
      search.phase = .recording path size → state.cache.seenShards.get path = none →
      state.seenBytes + size.toNat < 2 ^ 64

/-- Every step of the run is on time. -/
def AllOnTime (choices : List Choice) : Prop :=
  ∀ done next rest, choices = done ++ next :: rest → OnTime (run step initial done) next

/-- Every step of the run fits. -/
def AllFit (choices : List Choice) : Prop :=
  ∀ done next rest, choices = done ++ next :: rest → Fits (run step initial done) next

/-! ## What a step does to the cache -/

/-- A step leaves the cache alone, or a version begins, or an access is recorded. -/
theorem step_cases (state : SearcherState) (choice : Choice) :
    ((step state choice).cache = state.cache ∧
      (step state choice).recordedBy = state.recordedBy) ∨
    (∃ versionId, (step state choice).cache = state.cache.beginVersionAttempt versionId ∧
      (step state choice).recordedBy =
        if state.cache.attemptedVersion ≠ some versionId then [] else state.recordedBy) ∨
    ∃ i outcome search path size, choice = .advance i outcome ∧ state.searches[i]? = some search ∧
      search.phase = .recording path size ∧
      (step state choice).cache = state.cache.recordShardAccess path search.versionId size ∧
      (step state choice).recordedBy =
        if (state.cache.seenShards.get path).isSome then state.recordedBy
        else state.recordedBy ++ [(path, search.versionId)] := by
  cases choice with
  | start versionId shards => exact .inl ⟨rfl, rfl⟩
  | advance i outcome =>
      cases hsearch : state.searches[i]? with
      | none =>
          left
          simp only [step, hsearch]
          trivial
      | some search =>
          have hstep : step state (.advance i outcome) = state.advance i search outcome := by
            simp only [step, hsearch]
          rw [hstep]
          unfold advance
          cases hphase : search.phase with
          | begin => exact .inr (.inl ⟨search.versionId, rfl, rfl⟩)
          | recording path size =>
              exact .inr (.inr ⟨i, outcome, search, path, size, rfl, hsearch, hphase, rfl, rfl⟩)
          | finished => exact .inl ⟨rfl, rfl⟩
          | inspecting path =>
              left
              cases outcome <;> exact ⟨rfl, rfl⟩
          | querying path size =>
              left
              cases outcome <;> exact ⟨rfl, rfl⟩
          | nextShard =>
              left
              dsimp only
              split
              · exact ⟨rfl, rfl⟩
              · split
                · exact ⟨rfl, rfl⟩
                · split <;> exact ⟨rfl, rfl⟩

theorem step_recording {state : SearcherState} {i : Nat} (outcome : Option UInt64)
    {search : ManifestSearch} {path : String} {size : UInt64}
    (hsearch : state.searches[i]? = some search) (hphase : search.phase = .recording path size) :
    (step state (.advance i outcome)).cache =
        state.cache.recordShardAccess path search.versionId size ∧
      (step state (.advance i outcome)).recordedBy =
        if (state.cache.seenShards.get path).isSome then state.recordedBy
        else state.recordedBy ++ [(path, search.versionId)] := by
  simp only [step, hsearch, advance, hphase]
  exact ⟨rfl, rfl⟩

end SearcherState

/-! ## The bytes -/

namespace LocalLanceCache

/-- An access either finds its shard or adds it. -/
theorem recordShardAccess_rows (cache : LocalLanceCache) (path : String) (versionId : UInt64)
    (size : UInt64) :
    (cache.recordShardAccess path versionId size).seenShards.rows =
        (if (cache.seenShards.get path).isSome then cache.seenShards.rows
          else cache.seenShards.rows ++ [⟨path, size⟩]) ∧
      (cache.recordShardAccess path versionId size).bytesUsed =
        cache.bytesUsed + (if (cache.seenShards.get path).isSome then 0 else size) ∧
      (cache.recordShardAccess path versionId size).attemptedVersion = some versionId ∧
      (cache.recordShardAccess path versionId size).currentVersion = some versionId := by
  unfold recordShardAccess publishVersion
  dsimp only
  cases hget : cache.seenShards.get path with
  | some shard => exact ⟨rfl, (UInt64.add_zero _).symm, rfl, rfl⟩
  | none =>
      refine ⟨?_, rfl, rfl, rfl⟩
      have hall := Table.get_eq_none_iff.mp hget
      show (cache.seenShards.rows.filter _ ++ _) = _
      rw [List.filter_eq_self.mpr]
      · rfl
      · intro shard hshard
        simpa using hall shard hshard

/-- The sum of the sizes of the seen shards. -/
def sizes (cache : LocalLanceCache) : Nat := (cache.seenShards.rows.map (·.size.toNat)).sum

theorem sizes_recordShardAccess (cache : LocalLanceCache) (path : String) (versionId : UInt64)
    (size : UInt64) :
    (cache.recordShardAccess path versionId size).sizes =
      cache.sizes + if (cache.seenShards.get path).isSome then 0 else size.toNat := by
  unfold sizes
  rw [(cache.recordShardAccess_rows path versionId size).1]
  split <;> simp

/-- The bytes are the sum of the sizes, up to wrapping. -/
def SumsUp (cache : LocalLanceCache) : Prop := cache.bytesUsed.toNat = cache.sizes % 2 ^ 64

theorem SumsUp.beginVersionAttempt {cache : LocalLanceCache} (h : cache.SumsUp) (versionId : UInt64) :
    (cache.beginVersionAttempt versionId).SumsUp := by
  unfold LocalLanceCache.beginVersionAttempt
  split
  · rfl
  · exact h

theorem SumsUp.recordShardAccess {cache : LocalLanceCache} (h : cache.SumsUp) (path : String)
    (versionId : UInt64) (size : UInt64) : (cache.recordShardAccess path versionId size).SumsUp := by
  have hbytes := (cache.recordShardAccess_rows path versionId size).2.1
  unfold SumsUp at h ⊢
  rw [sizes_recordShardAccess, hbytes, UInt64.toNat_add, h]
  split
  · simp
  · omega

end LocalLanceCache

namespace SearcherState

open LocalLanceCache

theorem sumsUp_run (choices : List Choice) : (run step initial choices).cache.SumsUp := by
  refine run_invariant (fun state : SearcherState => state.cache.SumsUp) ?_ ?_ choices
  · intro state choice h
    rcases step_cases state choice with ⟨hcache, -⟩ | ⟨versionId, hcache, -⟩ |
      ⟨_, _, search, path, size, -, -, -, hcache, -⟩
    · rwa [hcache]
    · rw [hcache]
      exact h.beginVersionAttempt versionId
    · rw [hcache]
      exact h.recordShardAccess path search.versionId size
  · rfl

/-! ## The versions -/

/-- Every seen shard has one recorder, of the version that was begun last. -/
structure Owned (state : SearcherState) : Prop where
  seen : ∀ path, (∃ shard ∈ state.cache.seenShards.rows, shard.path = path) ↔
    ∃ versionId, (path, versionId) ∈ state.recordedBy
  attempted : ∀ path versionId, (path, versionId) ∈ state.recordedBy →
    state.cache.attemptedVersion = some versionId
  current : ∀ versionId, state.cache.currentVersion = some versionId →
    state.cache.attemptedVersion = some versionId

theorem owned_initial : Owned initial where
  seen := by simp [initial, empty]
  attempted := by simp [initial]
  current := by simp [initial, empty]

/-- Shards of the begun version are those of the current one. -/
theorem Owned.consistent {state : SearcherState} (h : Owned state)
    (hbytes : state.cache.bytesUsed.toNat = state.seenBytes) : Consistent state where
  bytes := hbytes
  versions := by
    intro versionId hcurrent shard hshard
    obtain ⟨recorder, hrecorder⟩ := (h.seen shard.path).mp ⟨shard, hshard, rfl⟩
    have hsame := (h.attempted _ _ hrecorder).symm.trans (h.current versionId hcurrent)
    rwa [← Option.some.inj hsame]

theorem seen_append {rows : List SeenShard} {recordedBy : List (String × UInt64)}
    (h : ∀ path, (∃ shard ∈ rows, shard.path = path) ↔ ∃ versionId, (path, versionId) ∈ recordedBy)
    (path : String) (versionId : UInt64) (size : UInt64) (path' : String) :
    (∃ shard ∈ rows ++ [⟨path, size⟩], shard.path = path') ↔
      ∃ recorder, (path', recorder) ∈ recordedBy ++ [(path, versionId)] := by
  constructor
  · rintro ⟨shard, hshard, rfl⟩
    rcases List.mem_append.mp hshard with hshard | hshard
    · obtain ⟨recorder, hrecorder⟩ := (h shard.path).mp ⟨shard, hshard, rfl⟩
      exact ⟨recorder, List.mem_append_left _ hrecorder⟩
    · rw [List.mem_singleton.mp hshard]
      exact ⟨versionId, by simp⟩
  · rintro ⟨recorder, hrecorder⟩
    rcases List.mem_append.mp hrecorder with hrecorder | hrecorder
    · obtain ⟨shard, hshard, hpath⟩ := (h path').mpr ⟨recorder, hrecorder⟩
      exact ⟨shard, List.mem_append_left _ hshard, hpath⟩
    · cases List.mem_singleton.mp hrecorder
      exact ⟨⟨path, size⟩, by simp, rfl⟩

/-- A step on time keeps the recorders. -/
theorem Owned.step {state : SearcherState} (h : Owned state) {choice : Choice}
    (htime : OnTime state choice) : Owned (step state choice) := by
  rcases step_cases state choice with ⟨hcache, hrecorded⟩ | ⟨versionId, hcache, hrecorded⟩ |
    ⟨i, outcome, search, path, size, rfl, hsearch, hphase, hcache, hrecorded⟩
  · exact ⟨by rw [hcache, hrecorded]; exact h.seen, by rw [hcache, hrecorded]; exact h.attempted,
      by rw [hcache]; exact h.current⟩
  · -- a reset forgets all shards and their recorders
    by_cases hother : state.cache.attemptedVersion ≠ some versionId
    · rw [beginVersionAttempt, if_pos hother] at hcache
      rw [if_pos hother] at hrecorded
      refine ⟨?_, ?_, ?_⟩
      · rw [hcache, hrecorded]
        simp [resetForAttempt]
      · rw [hrecorded]
        simp
      · rw [hcache]
        simp [resetForAttempt]
    · rw [beginVersionAttempt, if_neg hother] at hcache
      rw [if_neg hother] at hrecorded
      exact ⟨by rw [hcache, hrecorded]; exact h.seen, by rw [hcache, hrecorded]; exact h.attempted,
        by rw [hcache]; exact h.current⟩
  · obtain ⟨hrows, -, hattempted, hcurrent⟩ :=
      state.cache.recordShardAccess_rows path search.versionId size
    -- what is recorded so far is of the same version
    have hsame : ∀ path' versionId, (path', versionId) ∈ state.recordedBy →
        versionId = search.versionId := by
      intro path' versionId hrecorder
      rcases htime search path size hsearch hphase with hversion | hempty
      · exact Option.some.inj ((h.attempted _ _ hrecorder).symm.trans hversion)
      · obtain ⟨shard, hshard, -⟩ := (h.seen path').mpr ⟨versionId, hrecorder⟩
        rw [hempty] at hshard
        cases hshard
    refine ⟨?_, ?_, ?_⟩
    · rw [hcache, hrecorded, hrows]
      split
      · exact h.seen
      · exact seen_append h.seen path search.versionId size
    · rw [hcache, hrecorded, hattempted]
      intro path' versionId hrecorder
      split at hrecorder
      · rw [hsame _ _ hrecorder]
      · rcases List.mem_append.mp hrecorder with hrecorder | hrecorder
        · rw [hsame _ _ hrecorder]
        · cases List.mem_singleton.mp hrecorder
          rfl
    · rw [hcache, hattempted, hcurrent]
      exact fun _ hversion => hversion

/-- A late access leaves shards of another version under the version it publishes. -/
theorem Owned.not_consistent_step {state : SearcherState} (h : Owned state) {choice : Choice}
    (hlate : ¬OnTime state choice) : ¬Consistent (SearcherState.step state choice) := by
  cases choice with
  | start versionId shards => exact absurd trivial hlate
  | advance i outcome =>
      simp only [OnTime, not_forall, not_or] at hlate
      obtain ⟨search, path, size, hsearch, hphase, hversion, hsome⟩ := hlate
      obtain ⟨hcache, hrecorded⟩ := step_recording outcome hsearch hphase
      obtain ⟨hrows, -, -, hcurrent⟩ :=
        state.cache.recordShardAccess_rows path search.versionId size
      intro hconsistent
      have hall := hconsistent.versions search.versionId (by rw [hcache, hcurrent])
      rw [hcache, hrows, hrecorded] at hall
      -- a shard that was there has a recorder of another version only
      obtain ⟨shard, hshard⟩ := List.exists_mem_of_ne_nil _ hsome
      have hforeign : (shard.path, search.versionId) ∉ state.recordedBy :=
        fun hmem => hversion (h.attempted _ _ hmem)
      split at hall
      · exact hforeign (hall shard hshard)
      · rename_i hfresh
        rcases List.mem_append.mp (hall shard (List.mem_append_left _ hshard)) with hmem | hmem
        · exact hforeign hmem
        · -- it is not the shard of the access, which was not there
          have hpath : shard.path = path := (Prod.mk.inj (List.mem_singleton.mp hmem)).1
          apply hfresh
          rw [← hpath, Table.mem_iff_get.mp hshard]
          rfl

theorem AllOnTime.of_append {done rest : List Choice} (h : AllOnTime (done ++ rest)) :
    AllOnTime done := by
  intro before next after heq
  exact h before next (after ++ rest) (by rw [heq]; simp)

/-- In a run that is on time every shard has its recorder. -/
theorem owned_run {choices : List Choice} (h : AllOnTime choices) :
    Owned (run step initial choices) := by
  induction choices using List.reverseRecOn with
  | nil => exact owned_initial
  | append_singleton choices next ih =>
      rw [run_append]
      exact (ih h.of_append).step (h choices next [] rfl)

/-- A run with a late step reaches a state that is not consistent. -/
theorem allOnTime_of_consistent {choices : List Choice}
    (h : ∀ done, done <+: choices → Consistent (run step initial done)) : AllOnTime choices := by
  induction choices using List.reverseRecOn with
  | nil => exact fun done next rest heq => by simp at heq
  | append_singleton choices last ih =>
      have htimes := ih fun done hdone => h done (hdone.trans (List.prefix_append _ _))
      intro done next rest heq
      -- the step is the last one or one of those before it
      rcases List.eq_nil_or_concat rest with rfl | ⟨rest, last', rfl⟩
      · obtain ⟨rfl, hlast⟩ := List.append_inj' heq rfl
        cases hlast
        by_contra hlate
        have hend := h (choices ++ [last]) (List.prefix_refl _)
        rw [run_append] at hend
        exact (owned_run htimes).not_consistent_step hlate hend
      · have heq' : choices ++ [last] = (done ++ next :: rest) ++ [last'] := by simp [heq]
        exact htimes done next rest (List.append_inj' heq' rfl).1

/-- What the sizes add up to after a step that fits. -/
theorem seenBytes_step_lt {state : SearcherState} (h : state.seenBytes < 2 ^ 64) {choice : Choice}
    (hfits : Fits state choice) : (step state choice).seenBytes < 2 ^ 64 := by
  show (step state choice).cache.sizes < _
  rcases step_cases state choice with ⟨hcache, -⟩ | ⟨versionId, hcache, -⟩ |
    ⟨i, outcome, search, path, size, rfl, hsearch, hphase, hcache, -⟩
  · rw [hcache]
    exact h
  · rw [hcache, beginVersionAttempt]
    split
    · show 0 < 2 ^ 64
      omega
    · exact h
  · rw [hcache, sizes_recordShardAccess]
    split
    · exact h
    · rename_i hfresh
      exact hfits search path size hsearch hphase (Option.not_isSome_iff_eq_none.mp hfresh)

/-- In a run that fits the sizes do. -/
theorem seenBytes_run_lt {choices : List Choice} (h : AllFit choices) :
    (run step initial choices).seenBytes < 2 ^ 64 := by
  induction choices using List.reverseRecOn with
  | nil =>
      show 0 < 2 ^ 64
      omega
  | append_singleton choices next ih =>
      rw [run_append]
      apply seenBytes_step_lt
      · exact ih fun before choice after heq => h before choice (after ++ [next]) (by rw [heq]; simp)
      · exact h choices next [] rfl

/-- A step that does not fit leaves bytes that are not the sum. -/
theorem allFit_of_consistent {choices : List Choice}
    (h : ∀ done, done <+: choices → Consistent (run step initial done)) : AllFit choices := by
  rintro done next rest rfl
  cases next with
  | start versionId shards => trivial
  | advance i outcome =>
      intro search path size hsearch hphase hfresh
      have hbytes := (h (done ++ [.advance i outcome]) ⟨rest, by simp⟩).bytes
      rw [run_append] at hbytes
      replace hbytes : (step (run step initial done) (.advance i outcome)).cache.bytesUsed.toNat =
        (step (run step initial done) (.advance i outcome)).seenBytes := hbytes
      have hsum : (step (run step initial done) (.advance i outcome)).seenBytes =
          (run step initial done).seenBytes + size.toNat := by
        show (step _ _).cache.sizes = _
        rw [(step_recording outcome hsearch hphase).1, sizes_recordShardAccess, hfresh]
        rfl
      rw [← hsum, ← hbytes]
      exact UInt64.toNat_lt _

/-- The bytes add up in every run, up to wrapping, and every state of a run is consistent exactly if all
its steps are on time and fit. -/
theorem consistent_iff (choices : List Choice) :
    (run step initial choices).cache.bytesUsed.toNat = (run step initial choices).seenBytes % 2 ^ 64 ∧
      ((∀ done, done <+: choices → Consistent (run step initial done)) ↔
        AllOnTime choices ∧ AllFit choices) := by
  refine ⟨sumsUp_run choices, fun h => ⟨allOnTime_of_consistent h, allFit_of_consistent h⟩, ?_⟩
  rintro ⟨htime, hfits⟩ done ⟨rest, rfl⟩
  apply (owned_run htime.of_append).consistent
  have hlt : (run step initial done).seenBytes < 2 ^ 64 :=
    seenBytes_run_lt fun before next after heq => hfits before next (after ++ rest) (by rw [heq]; simp)
  have hsum := sumsUp_run done
  unfold SumsUp at hsum
  exact hsum.trans (Nat.mod_eq_of_lt hlt)

/-- Version 1 begins and measures its shard, version 2 begins and records its own, and then version 1
records. -/
def lateAccess : List Choice :=
  [.start 1 ["old"], .start 2 ["new"], .advance 0 none, .advance 0 (some 0), .advance 0 (some 1),
    .advance 0 (some 0), .advance 1 none, .advance 1 (some 0), .advance 1 (some 1),
    .advance 1 (some 0), .advance 1 none, .advance 0 none]

/-- Then the current version is 1 and the shard of version 2 is among the seen ones. -/
theorem lateAccess_inconsistent : ¬Consistent (run step initial lateAccess) := by
  intro h
  have hshard := h.versions 1 rfl ⟨"new", 1⟩ List.mem_cons_self
  have hrecorded : (run step initial lateAccess).recordedBy = [("new", 2), ("old", 1)] := by
    decide +kernel
  rw [hrecorded] at hshard
  simp at hshard

/-- Two shards of one version, the second of which does not fit. -/
def wrappingSizes : List Choice :=
  [.start 1 ["first", "second"], .advance 0 none, .advance 0 (some 0),
    .advance 0 (some 18446744073709551615), .advance 0 (some 0), .advance 0 none, .advance 0 (some 0),
    .advance 0 (some 1), .advance 0 (some 0), .advance 0 none]

example : (run step initial wrappingSizes).cache.bytesUsed = 0 ∧
    (run step initial wrappingSizes).seenBytes = 2 ^ 64 := by decide +kernel

end SearcherState

end LTSearch
