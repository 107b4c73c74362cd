/-
# LTSearch.Query.CacheCoherence -- the cached handler belongs to its key

The contract of the calls: the cached handler was made for its key, and while a call holds the lock
the cache changes only by a handler that this call has made.
-/
import LTSearch.Query.QueryService

namespace LTSearch

open LTSearch.Foundation Contract.Safe

namespace QueryService

variable {G : Type}

/-- The handler came from a successful bootstrap for the key: it answers from the key's version, and
its static index was loaded from the directory of the key's release. -/
structure MadeFor (w : World G) (key : QueryCacheKey) (handler : Handler G) : Prop where
  version : handler.manifestStore.activeManifest.head.versionId = key.1
  manifest : handler.manifestStore.activeManifest.manifest.versionId = key.1
  keyword : handler.keywordRetriever.manifestStore = handler.manifestStore
  vector : handler.vectorRetriever.manifestStore = handler.manifestStore
  release : handler.staticReleaseId = key.2
  noRelease : key.2 = none → handler.staticRetriever = .noop
  index : ∀ releaseId, key.2 = some releaseId → ∃ index, handler.staticRetriever = .turbo index ∧
    (staticReleaseDirKey releaseId, index) ∈ w.loaded
  made : (key, handler) ∈ w.made

/-- The cached handler belongs to its key, and a call that holds the lock without having made a handler
finds in the cache what it found at first. -/
structure Coherent (w : World G) : Prop where
  cached : ∀ entry, w.cache = some entry → MadeFor w entry.key entry.handler
  unchanged : ∀ t, w.lockedBy = some t → (w.calls t).bootstrapped = false →
    w.cache = (w.calls t).found

/-- The key that the call has loaded last. -/
def Loaded (t : Nat) (key : QueryCacheKey) (w : World G) : Prop :=
  (w.calls t).version = some key.1 ∧ (w.calls t).release = some key.2

/-- What has happened stays on record. -/
structure Later (w w' : World G) : Prop where
  loaded : w.loaded ⊆ w'.loaded
  made : w.made ⊆ w'.made

theorem MadeFor.later {w w' : World G} {key : QueryCacheKey} {handler : Handler G}
    (h : MadeFor w key handler) (hlater : Later w w') : MadeFor w' key handler :=
  { h with
    index := fun releaseId hrelease =>
      (h.index releaseId hrelease).imp fun _ hindex => ⟨hindex.1, hlater.loaded hindex.2⟩
    made := hlater.made h.made }

/-- What one call leaves alone for another. -/
structure Undisturbed (t : Nat) (w w' : World G) : Prop where
  call : w'.calls t = w.calls t
  locked : w.lockedBy = some t → w'.lockedBy = some t ∧ w'.cache = w.cache

def contract : Contract (machine G) where
  inv := Coherent
  change := Later
  frame := Undisturbed
  allowed t op _ w := ready t op w = true
  change_refl _ := ⟨List.Subset.refl _, List.Subset.refl _⟩
  change_trans h h' := ⟨List.Subset.trans h.loaded h'.loaded, List.Subset.trans h.made h'.made⟩
  frame_refl _ _ := ⟨rfl, fun h => ⟨h, rfl⟩⟩
  frame_trans h h' := ⟨h'.call.trans h.call, fun hlocked =>
    ⟨(h'.locked (h.locked hlocked).1).1,
      (h'.locked (h.locked hlocked).1).2.trans (h.locked hlocked).2⟩⟩

/-! ## Steps that leave the cache and the lock alone -/

/-- Only the record of the call that moves changes, and not what it found. -/
structure Quiet (t : Nat) (w w' : World G) : Prop where
  cache : w'.cache = w.cache
  lockedBy : w'.lockedBy = w.lockedBy
  others : ∀ t', t' ≠ t → w'.calls t' = w.calls t'
  found : (w'.calls t).found = (w.calls t).found
  bootstrapped : (w.calls t).bootstrapped = true → (w'.calls t).bootstrapped = true
  later : Later w w'

theorem Quiet.keeps {t : Nat} {w w' : World G} (h : Quiet t w w') (hinv : Coherent w) :
    contract.Keeps t w w' where
  inv := {
    cached := fun entry hentry => (hinv.cached entry (h.cache ▸ hentry)).later h.later
    unchanged := by
      intro t' hlocked hnot
      rw [h.lockedBy] at hlocked
      rw [h.cache]
      by_cases ht : t' = t
      · subst ht
        rw [h.found]
        refine hinv.unchanged _ hlocked ?_
        cases hold : (w.calls t').bootstrapped with
        | false => rfl
        | true => exact absurd (h.bootstrapped hold) (by simp [hnot])
      · rw [h.others t' ht] at hnot ⊢
        exact hinv.unchanged _ hlocked hnot }
  change := h.later
  frame t' ht := ⟨h.others t' ht, fun hlocked => ⟨h.lockedBy.trans hlocked, h.cache⟩⟩

variable {t : Nat} {key : QueryCacheKey} {w : World G}

theorem Quiet.refl : Quiet t w w where
  cache := rfl
  lockedBy := rfl
  others _ _ := rfl
  found := rfl
  bootstrapped h := h
  later := contract.change_refl w

/-- A new entry in the record of the call. -/
theorem quiet_note {f : CallRecord G → CallRecord G} (hfound : ∀ c, (f c).found = c.found)
    (hbootstrapped : ∀ c, c.bootstrapped = true → (f c).bootstrapped = true) :
    Quiet t w (w.note t f) where
  cache := rfl
  lockedBy := rfl
  others t' ht := w.note_of_ne ht f
  found := by
    rw [World.note_self]
    exact hfound _
  bootstrapped h := by
    rw [World.note_self]
    exact hbootstrapped _ h
  later := ⟨List.Subset.refl _, List.Subset.refl _⟩

/-- The call has loaded the key, and holds the lock. -/
structure Steady (t : Nat) (key : QueryCacheKey) (w : World G) : Prop where
  loaded : Loaded t key w
  locked : w.lockedBy = some t

theorem Loaded.rely {w' : World G} (h : Loaded t key w) (hrely : contract.Rely t w w') :
    Loaded t key w' := by
  unfold Loaded
  rw [hrely.2.call]
  exact h

theorem Steady.rely {w' : World G} (h : Steady t key w) (hrely : contract.Rely t w w') :
    Steady t key w' :=
  ⟨h.loaded.rely hrely, (hrely.2.locked h.locked).1⟩

/-- A quiet operation of the bootstrap, by which the call learns `R`. -/
theorem safe_steady {op : ServiceOp G} {R : op.Ans → World G → Prop}
    (hR : ∀ {ans w w'}, Later w w' → R ans w → R ans w')
    (h : ∀ answers w, Quiet t w (perform t op answers w).2 ∧
      (perform t op answers w).2.calls = w.calls ∧
      R (perform t op answers w).1 (perform t op answers w).2)
    (hw : Steady t key w) :
    contract.Safe t (call op) (fun ans w' => Steady t key w' ∧ R ans w') w := by
  refine Contract.Safe.ask (P := Steady t key) (fun _ _ hrely _ h => h.rely hrely) hw
    fun w' answers hinv hsteady _ => ?_
  obtain ⟨hquiet, hcalls, hlearnt⟩ := h answers w'
  refine ⟨hquiet.keeps hinv, fun w'' hrely _ => ⟨?_, hR hrely.1 hlearnt⟩⟩
  have hsteady' : Steady t key (perform t op answers w').2 := by
    refine ⟨?_, hquiet.lockedBy.trans hsteady.locked⟩
    unfold Loaded
    rw [hcalls]
    exact hsteady.loaded
  exact hsteady'.rely hrely

/-- An operation that only reads leaves true what the others leave true. -/
theorem safe_same {op : ServiceOp G} {P : World G → Prop} (hP : contract.Stable t P)
    (h : ∀ answers w, (perform t op answers w).2 = w) (hw : P w) :
    contract.Safe t (call op) (fun _ => P) w := by
  refine Contract.Safe.ask hP hw fun w' answers hinv hPw _ => ⟨.of_eq hinv (h answers w'), ?_⟩
  intro w'' hrely hinv'
  rw [show ((machine G).apply t op answers w').2 = w' from h answers w'] at hrely
  exact hP w' w'' hrely hinv' hPw

theorem safe_read {op : ServiceOp G} (h : ∀ answers w, (perform t op answers w).2 = w)
    (hw : Steady t key w) : contract.Safe t (call op) (fun _ => Steady t key) w :=
  safe_same (fun _ _ hrely _ h => h.rely hrely) h hw

/-! ## The bootstrap -/

/-- Both ways out of a part of the bootstrap leave the call where it is. -/
abbrev Stays {ε α : Type} (t : Nat) (key : QueryCacheKey) (R : α → World G → Prop) :
    Except ε α → World G → Prop :=
  Contract.Safe.Outcome (fun a w => Steady t key w ∧ R a w) fun _ => Steady t key

theorem safe_readMapped {ε α : Type} {x : ServiceM G (Except ε α)} {f : ε → QueryLambdaError}
    (h : contract.Safe t x (fun _ => Steady t key) w) :
    contract.Safe t (callMapped x f).run (Stays t key fun _ _ => True) w := by
  refine mapErrorExcept (x := ExceptT.mk x) (h.mono fun r w' _ hw' => ?_)
  cases r with
  | ok a => exact ⟨hw', trivial⟩
  | error e => exact hw'

variable {env : Env}

theorem safe_loadActiveManifest {artifactRoot : String} (hw : Steady t key w) :
    contract.Safe t (loadActiveManifest artifactRoot).run
      (Stays t key fun activeManifest _ =>
        activeManifest.manifest.versionId = activeManifest.head.versionId) w := by
  unfold loadActiveManifest
  refine bindExcept ((safe_read (fun _ _ => rfl) hw).mono fun r w₁ _ hw₁ => ?_)
  cases r with
  | error e => exact hw₁
  | ok head =>
      refine bindExcept ((safe_read (fun _ _ => rfl) hw₁).mono fun r w₂ _ hw₂ => ?_)
      cases r with
      | error e => exact hw₂
      | ok manifest =>
          refine bindCheck (fun _ _ w₃ hrely₃ _ => ?_) fun _ _ _ hrely _ => hw₂.rely hrely
          refine bindCheck (fun _ hversion w₄ hrely₄ _ => ?_) fun _ _ _ hrely _ =>
            (hw₂.rely hrely₃).rely hrely
          refine pureExcept fun w₅ hrely₅ _ => ⟨((hw₂.rely hrely₃).rely hrely₄).rely hrely₅, ?_⟩
          exact not_not.mp (rejectIf_eq_ok.mp hversion)

/-- What the static side of a handler for a release is. -/
def SideFor (w : World G) (staticReleaseId : Option String) (side : StaticSide) : Prop :=
  (staticReleaseId = none → side = .noop) ∧
    ∀ releaseId, staticReleaseId = some releaseId → ∃ index, side = .turbo index ∧
      (staticReleaseDirKey releaseId, index) ∈ w.loaded

theorem safe_tryLoadStaticSearcher {artifactRoot : String} {staticReleaseId : Option String}
    (hw : Steady t key w) :
    contract.Safe t (tryLoadStaticSearcher artifactRoot staticReleaseId).run
      (Stays t key fun side w' => SideFor w' staticReleaseId side) w := by
  cases staticReleaseId with
  | none => exact pureExcept fun _ hrely _ => ⟨hw.rely hrely, fun _ => rfl, nofun⟩
  | some releaseId =>
      have hload : contract.Safe t (call (.loadIndex (staticReleaseDirKey releaseId)))
          (fun r w' => Steady t key w' ∧ ∀ index, r = .ok index →
            (staticReleaseDirKey releaseId, index) ∈ w'.loaded) w := by
        refine safe_steady (fun hlater h index hindex => hlater.loaded (h index hindex)) ?_ hw
        intro answers w
        simp only [perform]
        cases answers (.loadIndex (staticReleaseDirKey releaseId)) with
        | error e => exact ⟨.refl, rfl, fun index hindex => by cases hindex⟩
        | ok index =>
            refine ⟨⟨rfl, rfl, fun _ _ => rfl, rfl, fun h => h, ?_, List.Subset.refl _⟩, rfl, ?_⟩
            · exact List.subset_cons_self _ _
            · intro index' hindex
              obtain rfl := Except.ok.inj hindex
              exact List.mem_cons_self
      unfold tryLoadStaticSearcher
      refine bindExcept (mapErrorExcept (x := ExceptT.mk _) (hload.mono fun r w' _ hr => ?_))
      cases r with
      | error e => exact hr.1
      | ok index =>
          refine pureExcept fun w'' hrely _ => ⟨hr.1.rely hrely, nofun, fun releaseId' hid => ?_⟩
          obtain rfl := Option.some.inj hid
          exact ⟨index, rfl, hrely.1.loaded (hr.2 index rfl)⟩

/-- All of `MadeFor` but the record of it. -/
structure Fits (w : World G) (key : QueryCacheKey) (handler : Handler G) : Prop where
  version : handler.manifestStore.activeManifest.head.versionId = key.1
  manifest : handler.manifestStore.activeManifest.manifest.versionId = key.1
  keyword : handler.keywordRetriever.manifestStore = handler.manifestStore
  vector : handler.vectorRetriever.manifestStore = handler.manifestStore
  release : handler.staticReleaseId = key.2
  side : SideFor w key.2 handler.staticRetriever

theorem safe_bootstrapQueryEmbeddingHandler (hw : Steady t key w) :
    contract.Safe t (bootstrapQueryEmbeddingHandler env key.1 key.2).run
      (Stays t key fun handler w' => Fits w' key handler) w := by
  unfold bootstrapQueryEmbeddingHandler
  refine bindCheck (fun artifactRoot _ w₁ hrely₁ _ => ?_) fun _ _ _ hrely _ => hw.rely hrely
  have hw₁ := hw.rely hrely₁
  refine bindExcept ((safe_readMapped (safe_read (fun _ _ => rfl) hw₁)).mono fun r w₂ _ hr => ?_)
  cases r with
  | error e => exact hr
  | ok u =>
  have hw₂ := hr.1
  refine bindExcept (mapErrorExcept ((safe_loadActiveManifest hw₂).mono fun r w₃ _ hr => ?_))
  cases r with
  | error e => exact hr
  | ok activeManifest =>
  obtain ⟨hw₃, hmanifest⟩ := hr
  refine bindCheck (fun _ hversion w₄ hrely₄ _ => ?_) fun _ _ _ hrely _ => hw₃.rely hrely
  have hw₄ := hw₃.rely hrely₄
  -- the manifest that was loaded must be of the version in the key
  have hversion : activeManifest.head.versionId = key.1 := not_not.mp (rejectIf_eq_ok.mp hversion)
  refine bindExcept ((safe_readMapped (safe_read (fun _ _ => rfl) hw₄)).mono fun r w₅ _ hr => ?_)
  cases r with
  | error e => exact hr
  | ok generator =>
  have hw₅ := hr.1
  refine bindExcept ((safe_readMapped (safe_read (fun _ _ => rfl) hw₅)).mono fun r w₆ _ hr => ?_)
  cases r with
  | error e => exact hr
  | ok embedding =>
  have hw₆ := hr.1
  refine bindCheck (fun _ _ w₇ hrely₇ _ => ?_) fun _ _ _ hrely _ => hw₆.rely hrely
  refine bindExcept ((safe_tryLoadStaticSearcher (hw₆.rely hrely₇)).mono fun r w₈ _ hr => ?_)
  cases r with
  | error e => exact hr
  | ok side =>
  refine pureExcept fun w₉ hrely₉ _ => ⟨hr.1.rely hrely₉, hversion, hmanifest.trans hversion, rfl, rfl,
    rfl, hr.2.1, fun releaseId hid => ?_⟩
  exact (hr.2.2 releaseId hid).imp fun _ hindex => ⟨hindex.1, hrely₉.1.loaded hindex.2⟩

/-- The call has made a handler for the key. -/
structure Bootstrapped (t : Nat) (key : QueryCacheKey) (handler : Handler G) (w : World G) : Prop where
  steady : Steady t key w
  made : MadeFor w key handler
  noted : (w.calls t).bootstrapped = true

theorem Bootstrapped.rely {handler : Handler G} {w' : World G} (h : Bootstrapped t key handler w)
    (hrely : contract.Rely t w w') : Bootstrapped t key handler w' where
  steady := h.steady.rely hrely
  made := h.made.later hrely.1
  noted := by
    rw [hrely.2.call]
    exact h.noted

theorem safe_bootstrapForKey (hw : Steady t key w) :
    contract.Safe t (bootstrapForKey env key).run
      (Contract.Safe.Outcome (Bootstrapped t key) fun _ => Steady t key) w := by
  unfold bootstrapForKey
  refine bindCheck (fun _ _ w₁ hrely₁ _ => ?_) fun _ _ _ hrely _ => hw.rely hrely
  refine bindExcept ((safe_bootstrapQueryEmbeddingHandler (hw.rely hrely₁)).mono fun r w₂ _ hr => ?_)
  cases r with
  | error e => exact hr
  | ok handler =>
      have hshare : contract.Safe t (call (.share key handler)) (fun _ => Bootstrapped t key handler)
          w₂ := by
        refine Contract.Safe.ask (P := fun w => Steady t key w ∧ Fits w key handler) ?_ hr ?_
        · rintro w w' hrely - ⟨hsteady, hfits⟩
          refine ⟨hsteady.rely hrely, { hfits with side := ⟨hfits.side.1, fun releaseId hid => ?_⟩ }⟩
          exact (hfits.side.2 releaseId hid).imp fun _ h => ⟨h.1, hrely.1.loaded h.2⟩
        · rintro w answers hinv ⟨hsteady, hfits⟩ -
          -- sharing a handler adds to what was made, and leaves the cache alone
          have hquiet : Quiet t w (perform t (.share key handler) answers w).2 :=
            { cache := rfl
              lockedBy := rfl
              others := fun t' ht => by
                simp only [perform]
                exact World.note_of_ne _ ht _
              found := by simp only [perform, World.note_self]
              bootstrapped := fun _ => by simp only [perform, World.note_self]
              later := ⟨List.Subset.refl _, List.subset_cons_self _ _⟩ }
          refine ⟨hquiet.keeps hinv, fun w' hrely _ => ?_⟩
          refine Bootstrapped.rely (w := (perform t (.share key handler) answers w).2) ?_ hrely
          refine ⟨⟨?_, hsteady.locked⟩, ⟨hfits.version, hfits.manifest, hfits.keyword, hfits.vector,
            hfits.release, hfits.side.1, hfits.side.2, List.mem_cons_self⟩, ?_⟩
          · simp only [Loaded, perform, World.note_self]
            exact hsteady.loaded
          · simp only [perform, World.note_self]
      refine bindExcept (liftExcept (hshare.mono fun _ w₃ _ hw₃ => ?_))
      exact pureExcept fun _ hrely _ => hw₃.rely hrely

/-! ## The cache -/

/-- What a call returns belongs to the key that it has loaded. -/
def Returns (t : Nat) (key : QueryCacheKey) :
    Except QueryLambdaError (Handler G) → World G → Prop :=
  Contract.Safe.Outcome (fun handler w => Loaded t key w ∧ MadeFor w key handler) fun _ _ => True

/-- Nobody else holds a lock that this call holds. -/
theorem Steady.not_locked {t' : Nat} (h : Steady t key w) (ht : t' ≠ t) : w.lockedBy ≠ some t' := by
  rw [h.locked]
  exact fun heq => ht (Option.some.inj heq).symm

/-- The lock is given back; what cannot be undone stays. -/
theorem safe_unlock {R : World G → Prop} (hR : ∀ {w w'}, Later w w' → R w → R w')
    (hw : Steady t key w) (hRw : R w) :
    contract.Safe t (call .unlock) (fun _ w' => Loaded t key w' ∧ R w') w := by
  refine Contract.Safe.ask (P := fun w => Steady t key w ∧ R w)
    (fun _ _ hrely _ h => ⟨h.1.rely hrely, hR hrely.1 h.2⟩) ⟨hw, hRw⟩ ?_
  rintro w answers hinv ⟨hsteady, hRw⟩ -
  have hlater : Later w (perform t .unlock answers w).2 := ⟨List.Subset.refl _, List.Subset.refl _⟩
  refine ⟨⟨⟨fun entry hentry => (hinv.cached entry hentry).later hlater, nofun⟩, hlater,
    fun t' ht => ⟨rfl, fun hlocked => absurd hlocked (hsteady.not_locked ht)⟩⟩, ?_⟩
  intro w' hrely _
  have hloaded : Loaded t key (perform t .unlock answers w).2 := hsteady.loaded
  exact ⟨hloaded.rely hrely, hR hrely.1 (hR hlater hRw)⟩

/-- The handler that the call has made goes into the cache. -/
theorem safe_store {handler : Handler G} (hw : Bootstrapped t key handler w) :
    contract.Safe t (call (.store { key, handler })) (fun _ => Bootstrapped t key handler) w := by
  refine Contract.Safe.ask (P := Bootstrapped t key handler) (fun _ _ hrely _ h => h.rely hrely) hw ?_
  intro w answers hinv hboot _
  have hlater : Later w (perform t (.store { key, handler }) answers w).2 :=
    ⟨List.Subset.refl _, List.Subset.refl _⟩
  -- the entry is made for its key, and the lock is still with `t`
  refine ⟨⟨⟨?_, ?_⟩, hlater, ?_⟩, ?_⟩
  · intro entry hentry
    obtain rfl := Option.some.inj hentry
    exact hboot.made.later hlater
  · intro t' hlocked hnot
    obtain rfl : t = t' := Option.some.inj (hboot.steady.locked.symm.trans hlocked)
    exact absurd (hboot.noted.symm.trans hnot) nofun
  · exact fun t' ht => ⟨rfl, fun hlocked => absurd hlocked (hboot.steady.not_locked ht)⟩
  · intro w' hrely _
    have hstored : Bootstrapped t key handler (perform t (.store { key, handler }) answers w).2 :=
      ⟨⟨hboot.steady.loaded, hboot.steady.locked⟩, hboot.made.later hlater, hboot.noted⟩
    exact hstored.rely hrely

/-- The lock is taken, and the state it protects is coherent. -/
theorem safe_lock (hw : Loaded t key w) :
    contract.Safe t (call .lock) (fun state w' => Steady t key w' ∧
      ∀ entry, state = some entry → MadeFor w' entry.key entry.handler) w := by
  refine Contract.Safe.ask (P := Loaded t key) (fun _ _ hrely _ h => h.rely hrely) hw ?_
  intro w answers hinv hloaded hready
  -- a thread waits until the lock is free
  have hfree : w.lockedBy = none := Option.isNone_iff_eq_none.mp hready
  have hlater : Later w (perform t .lock answers w).2 := ⟨List.Subset.refl _, List.Subset.refl _⟩
  refine ⟨⟨⟨fun entry hentry => (hinv.cached entry hentry).later hlater, ?_⟩, hlater, ?_⟩, ?_⟩
  · intro t' hlocked _
    obtain rfl : t = t' := Option.some.inj hlocked
    simp only [machine, perform, World.note_self]
    rfl
  · intro t' ht
    refine ⟨?_, fun hlocked => ?_⟩
    · simp only [machine, perform]
      exact World.note_of_ne _ ht _
    · rw [hfree] at hlocked
      cases hlocked
  · intro w' hrely _
    have hsteady : Steady t key (perform t .lock answers w).2 := by
      refine ⟨?_, rfl⟩
      simp only [Loaded, perform, World.note_self]
      exact hloaded
    exact ⟨hsteady.rely hrely, fun entry hentry =>
      ((hinv.cached entry hentry).later hlater).later hrely.1⟩

/-- With the lock held: a cached handler, if there was one for the key, was made for it. -/
theorem safe_resolveLocked {state : Option (CachedQueryHandler G)} (hw : Steady t key w)
    (hstate : ∀ entry, state = some entry → MadeFor w entry.key entry.handler) :
    contract.Safe t (resolveLocked env key state) (Returns t key) w := by
  unfold resolveLocked
  cases hhit : state.filter fun cached => cached.key = key with
  | some cached =>
      -- a hit: what is cached under the key was made for it
      obtain ⟨hcached, hkey⟩ := Option.filter_eq_some_iff.mp hhit
      obtain rfl := of_decide_eq_true hkey
      refine Contract.Safe.bind ((safe_unlock (R := fun w => MadeFor w cached.key cached.handler)
        (fun hlater h => h.later hlater) hw (hstate cached hcached)).mono fun _ w' _ hw' => ?_)
      exact Contract.Safe.done fun w'' hrely _ => ⟨hw'.1.rely hrely, hw'.2.later hrely.1⟩
  | none =>
      -- a miss: the handler is made and stored before the lock is given back
      refine Contract.Safe.bind ((safe_bootstrapForKey hw).mono fun r w₁ _ hr => ?_)
      cases r with
      | error error =>
          refine Contract.Safe.bind ((safe_unlock (R := fun _ => True) (fun _ _ => trivial) hr
            trivial).mono fun _ _ _ _ => ?_)
          exact Contract.Safe.done fun _ _ _ => trivial
      | ok handler =>
          refine Contract.Safe.bind ((safe_store hr).mono fun _ w₂ _ hw₂ => ?_)
          refine Contract.Safe.bind ((safe_unlock (R := fun w => MadeFor w key handler)
            (fun hlater h => h.later hlater) hw₂.steady hw₂.made).mono fun _ w₃ _ hw₃ => ?_)
          exact Contract.Safe.done fun w₄ hrely _ => ⟨hw₃.1.rely hrely, hw₃.2.later hrely.1⟩

/-! ## The key -/

/-- An operation that only adds to what the call has loaded. -/
theorem safe_note (op : ServiceOp G) (P : CallRecord G → Prop) (Q : op.Ans → CallRecord G → Prop)
    (f : ((op : ServiceOp G) → op.Ans) → CallRecord G → CallRecord G)
    (h : ∀ answers w, perform t op answers w = (answers op, w.note t (f answers)))
    (hfound : ∀ answers c, (f answers c).found = c.found)
    (hbootstrapped : ∀ answers c, (f answers c).bootstrapped = c.bootstrapped)
    (hQ : ∀ answers c, P c → Q (answers op) (f answers c)) (hw : P (w.calls t)) :
    contract.Safe t (call op) (fun ans w' => Q ans (w'.calls t)) w := by
  refine Contract.Safe.ask (P := fun w => P (w.calls t)) (fun _ _ hrely _ h => ?_) hw
    fun w' answers hinv hPw _ => ?_
  · show P _
    rw [hrely.2.call]
    exact h
  · rw [show (machine G).apply t op answers w' = _ from h answers w']
    refine ⟨(quiet_note (hfound answers) fun c hc => (hbootstrapped answers c).trans hc).keeps hinv, ?_⟩
    intro w'' hrely _
    rw [hrely.2.call, World.note_self]
    exact hQ answers _ hPw

theorem safe_loadActiveQueryVersionFromEnv :
    contract.Safe t (loadActiveQueryVersionFromEnv env).run
      (Contract.Safe.Outcome (fun version w' => (w'.calls t).version = some version) fun _ _ => True)
      w := by
  unfold loadActiveQueryVersionFromEnv
  refine bindCheck (fun _ _ w₁ _ _ => ?_) fun _ _ _ _ _ => trivial
  have hopen : contract.Safe t (call .openStore) (fun _ _ => True) w₁ :=
    safe_same (fun _ _ _ _ _ => trivial) (fun _ _ => rfl) trivial
  refine bindExcept (mapErrorExcept (x := ExceptT.mk _) (hopen.mono fun r w₂ _ _ => ?_))
  cases r with
  | error e => trivial
  | ok u =>
      have hload : contract.Safe t (call .loadActiveVersion)
          (fun r w' => ∀ version, r = .ok version → (w'.calls t).version = some version) w₂ :=
        safe_note .loadActiveVersion (fun _ => True)
          (fun r c => ∀ version, r = .ok version → c.version = some version)
          (fun answers c => { c with version := (answers .loadActiveVersion).toOption })
          (fun _ _ => rfl) (fun _ _ => rfl) (fun _ _ => rfl)
          (fun _ _ _ _ hversion => congrArg Except.toOption hversion) trivial
      refine mapErrorExcept (x := ExceptT.mk _) (hload.mono fun r w₃ _ hr => ?_)
      cases r with
      | error e => trivial
      | ok version => exact hr version rfl

theorem safe_resolveActiveStaticReleaseId {version : UInt64}
    (hw : (w.calls t).version = some version) :
    contract.Safe t resolveActiveStaticReleaseId.run
      (Contract.Safe.Outcome (fun releaseId w' => (w'.calls t).version = some version ∧
        (w'.calls t).release = some releaseId) fun _ _ => True) w := by
  unfold resolveActiveStaticReleaseId
  have hstable : contract.Stable t fun w : World G => (w.calls t).version = some version := by
    intro w w' hrely _ hw
    rw [hrely.2.call]
    exact hw
  have hopen : contract.Safe t (call .openStore) (fun _ w' => (w'.calls t).version = some version) w :=
    safe_same hstable (fun _ _ => rfl) hw
  refine bindExcept (mapErrorExcept (x := ExceptT.mk _) (hopen.mono fun r w₁ _ hw₁ => ?_))
  cases r with
  | error e => trivial
  | ok u =>
      have hload : contract.Safe t (call .loadActiveRelease)
          (fun r w' => ∀ head, r = .ok head → (w'.calls t).version = some version ∧
            (w'.calls t).release = some (head.map (·.releaseId))) w₁ :=
        safe_note .loadActiveRelease (fun c => c.version = some version)
          (fun r c => ∀ head, r = .ok head →
            c.version = some version ∧ c.release = some (head.map (·.releaseId)))
          (fun answers c => { c with
            release := (answers .loadActiveRelease).toOption.map (Option.map (·.releaseId)) })
          (fun _ _ => rfl) (fun _ _ => rfl) (fun _ _ => rfl)
          (fun _ _ hc _ hhead => ⟨hc, congrArg (fun r : Except String (Option StaticReleaseHead) =>
            r.toOption.map (Option.map (·.releaseId))) hhead⟩) hw₁
      refine bindExcept (mapErrorExcept (x := ExceptT.mk _) (hload.mono fun r w₂ _ hr => ?_))
      cases r with
      | error e => trivial
      | ok head =>
          refine pureExcept fun w₃ hrely _ => ?_
          rw [hrely.2.call]
          exact hr head rfl

/-- The key that is returned is the one on record. -/
theorem safe_loadActiveQueryKeyFromEnv :
    contract.Safe t (loadActiveQueryKeyFromEnv env).run
      (Contract.Safe.Outcome (fun key w' => Loaded t key w') fun _ _ => True) w := by
  unfold loadActiveQueryKeyFromEnv
  refine bindExcept (safe_loadActiveQueryVersionFromEnv.mono fun r w₁ _ hr => ?_)
  cases r with
  | error e => trivial
  | ok version =>
      refine bindCheck (fun _ _ w₂ hrely₂ _ => ?_) fun _ _ _ _ _ => trivial
      have hversion : (w₂.calls t).version = some version := by
        rw [hrely₂.2.call]
        exact hr
      refine bindExcept ((safe_resolveActiveStaticReleaseId hversion).mono fun r w₃ _ hr => ?_)
      cases r with
      | error e => trivial
      | ok releaseId =>
          have hloaded : Loaded t (version, releaseId) w₃ := hr
          exact pureExcept fun _ hrely _ => hloaded.rely hrely

theorem safe_resolveVersionedHandler :
    contract.Safe t (resolveVersionedHandler env).run
      (Contract.Safe.Outcome (fun handler w' => ∃ key, Loaded t key w' ∧ MadeFor w' key handler)
        fun _ _ => True) w := by
  unfold resolveVersionedHandler
  refine bindExcept (safe_loadActiveQueryKeyFromEnv.mono fun r w₁ _ hr => ?_)
  cases r with
  | error e => trivial
  | ok key =>
      refine bindExcept (liftExcept ((safe_lock hr).mono fun state w₂ _ hw₂ => ?_))
      refine (safe_resolveLocked hw₂.1 hw₂.2).mono fun r w₃ _ hr => ?_
      cases r with
      | error e => trivial
      | ok handler => exact ⟨key, hr⟩

theorem safe_resolveHandler :
    contract.Safe t (resolveHandler env).run
      (Contract.Safe.Outcome (fun handler w' => ∃ key, Loaded t key w' ∧ MadeFor w' key handler)
        fun _ _ => True) w := by
  unfold resolveHandler
  refine Contract.Safe.bind (safe_resolveVersionedHandler.stable_post.mono fun r w' hinv hr => ?_)
  cases r with
  | ok handler => exact Contract.Safe.done fun w'' hrely hinv' => hr w'' hrely hinv'
  | error error =>
      show contract.Safe t (if _ then _ else _) _ w'
      split
      · exact safe_resolveVersionedHandler
      · exact Contract.Safe.done fun _ _ _ => trivial

/-- The calls as they start. -/
def resolvers (env : Env) (G : Type) :
    Config (signature G) (World G) Nat (Except QueryLambdaError (Handler G)) where
  world := .new G
  threads _ := (resolveHandler env).run

/-- Where the calls are after some turns. -/
def resolved (env : Env) (turns : List (Nat × ((op : ServiceOp G) → op.Ans))) :
    Config (signature G) (World G) Nat (Except QueryLambdaError (Handler G)) :=
  run ((machine G).stepWaiting ready) (resolvers env G) turns

/-- In every reachable state the cached handler was made for the cached key, a call that holds the lock
and has made no handler finds the cache as it was, and a call that has returned a handler has returned
one that was made for the key it had loaded. -/
theorem cache_coherent (env : Env) (turns : List (Nat × ((op : ServiceOp G) → op.Ans))) :
    Coherent (resolved env turns).world ∧
    ∀ (t : Nat) (handler : Handler G), (resolved env turns).threads t = .done (.ok handler) →
      ∃ key, Loaded t key (resolved env turns).world ∧
        MadeFor (resolved env turns).world key handler := by
  have hstart : Coherent (resolvers env G).world := by
    refine ⟨fun entry hentry => ?_, fun t hlocked _ => ?_⟩
    · exact absurd (show none = some entry from hentry) nofun
    · exact absurd (show none = some t from hlocked) nofun
  have hsafe : ∀ t, contract.Safe t ((resolvers env G).threads t)
      (Contract.Safe.Outcome (fun handler w' => ∃ key, Loaded t key w' ∧ MadeFor w' key handler)
        fun _ _ => True) (resolvers env G).world := fun t => safe_resolveHandler
  have hkept := Contract.run_safe_waiting (fun _ _ _ _ h => h) hstart hsafe turns
  refine ⟨hkept.inv, fun t handler hdone => ?_⟩
  have hpost := hkept.safe t
  rw [show (run ((machine G).stepWaiting ready) (resolvers env G) turns).threads t = _ from hdone]
    at hpost
  exact hpost _ (contract.rely_refl t _) hkept.inv

end QueryService

end LTSearch
