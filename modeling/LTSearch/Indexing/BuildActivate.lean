/-
# LTSearch.Indexing.BuildActivate -- a built version becomes the active one

The publication of a build: its manifest is uploaded while its mover holds the version, and the swap of
the head replaces the version that the worker allocated on, or a head with the tag of that one.

Of the operations of a publish call only two change what the contract speaks of, the upload of the
manifest and the swap; the directories go to keys that are no manifest's, and everything else reads.  So
the call is followed operation by operation, and the checks it makes on the way are kept as facts about
the head that was read.  The call is the worker's: it expects the version it allocated on, and it
publishes the first version only where there was no head.  What a client chooses otherwise, and a
rollback, is left to `HeadChain`.
-/
import LTSearch.Indexing.BuildPublish

namespace LTSearch

open LTSearch.Foundation Contract.Safe

variable {setup : Setup} {env : WorkerEnv} {t : Nat} {w w' : Annals} {v : UInt64} {listed : List String}
  {expected : Option UInt64}

/-! ## What a worker knows -/

/-- The note on the last allocation of a worker: the version it expects was stored, with that snapshot. -/
def Allocated (t : Nat) (listed : List String) (expected : Option UInt64) (w : Annals) : Prop :=
  ∃ based, w.allocation t = some { listed, based } ∧ (expected = none → based = []) ∧
    ∀ e, expected = some e → w.world.snapshot e = based ∧
      (w.world.objects (versionManifestKey e)).isSome

theorem Allocated.of_grows (h : Allocated t listed expected w) (hgrows : Grows w w')
    (hsame : w'.allocation t = w.allocation t) : Allocated t listed expected w' := by
  obtain ⟨based, hnoted, hnone, hsome⟩ := h
  refine ⟨based, hsame.trans hnoted, hnone, fun e he => ?_⟩
  obtain ⟨hsnapshot, hstored⟩ := hsome e he
  obtain ⟨hkept, hstored'⟩ := hgrows.snapshot_eq hstored
  exact ⟨hkept.trans hsnapshot, hstored'⟩

theorem Allocated.stable : (buildContract setup env).Stable t (Allocated t listed expected) :=
  fun _ _ hrely _ h => h.of_grows hrely.1 hrely.2.allocation

/-- A worker that has built its version. -/
structure Publishing (setup : Setup) (t : Nat) (v : UInt64) (listed : List String)
    (expected : Option UInt64) (w : Annals) : Prop where
  allocated : Allocated t listed expected w
  built : BuiltVersion setup t v listed w

theorem Publishing.stable : (buildContract setup env).Stable t (Publishing setup t v listed expected) :=
  fun w w' hrely hinv h =>
    ⟨Allocated.stable w w' hrely hinv h.allocated, BuiltVersion.stable v listed w w' hrely hinv h.built⟩

/-- A head as a publisher has read it. -/
def HeadSeen (setup : Setup) (object : Option VersionedObject) (w : Annals) : Prop :=
  ∀ o, object = some o → ∃ u updatedAt, u ≠ 0 ∧ minPlausibleEpochMillis ≤ updatedAt ∧
    o.bytes = setup.head.toVec (.new u updatedAt) ∧ (w.world.objects (versionManifestKey u)).isSome

theorem HeadSeen.grows {object : Option VersionedObject} (h : HeadSeen setup object w) (hgrows : Grows w w') :
    HeadSeen setup object w' := by
  intro o ho
  obtain ⟨u, updatedAt, hu, htime, hbytes, hstored⟩ := h o ho
  exact ⟨u, updatedAt, hu, htime, hbytes, (hgrows.snapshot_eq hstored).2⟩

/-- The manifest of a version is stored, with these segments. -/
def Stored (v : UInt64) (segments : List String) (w : Annals) : Prop :=
  ∃ cell, w.world.objects (versionManifestKey v) = some cell ∧ cell.content.segments = segments

theorem Stored.grows {segments : List String} (h : Stored v segments w) (hgrows : Grows w w') :
    Stored v segments w' := by
  obtain ⟨cell, hcell, hsegments⟩ := h
  obtain ⟨cell', hcell', hsame⟩ := hgrows.stored v cell hcell
  exact ⟨cell', hcell', hsame.trans hsegments⟩

/-! ## The checks -/

section Checks

variable (hdeployed : LocalDeployment setup) {P : Annals → Prop}

include hdeployed

theorem safe_readHeadSeen (hstable : (buildContract setup env).Stable t P) (hw : P w) :
    (buildContract setup env).Safe t (call (.readHead .publisher))
      (Outcome (fun object w' => P w' ∧ HeadSeen setup object w') fun _ _ => True) w := by
  apply Contract.Safe.ask hstable hw
  intro w₁ c hinv hP _
  have hquiet : Quiet (.readHead .publisher) := trivial
  have hsame : SameBooks w₁ ((annalist setup).apply t (.readHead .publisher) c w₁).2 := sameBooks_quiet hquiet c
  refine ⟨hsame.keeps hdeployed hinv, fun w₂ hrely hinv₂ => ?_⟩
  have hrely' : (buildContract setup env).Rely t w₁ w₂ := hsame.rely.trans hrely
  have hw₂ : P w₂ := hstable _ _ hrely' hinv₂ hP
  show Outcome _ _ (w₁.world.readHeadAt setup t .publisher c).1 w₂
  unfold World.readHeadAt
  simp only [hdeployed.backend]
  cases hread : headRowRead c.sql .activeHead w₁.world.queue.db with
  | error e db => trivial
  | ok found db =>
      obtain ⟨-, rfl, -⟩ := headRowRead_eq_ok.mp hread
      refine ⟨hw₂, HeadSeen.grows (w := w₁) ?_ hrely'.1⟩
      intro o ho
      obtain ⟨bytes, hbytes, rfl⟩ := Option.map_eq_some_iff.mp ho
      rw [LocalDb.head_activeHead, ← headBytes_eq hdeployed] at hbytes
      obtain ⟨u, updatedAt, hu, htime, hnew, hstored⟩ := hinv.head bytes hbytes
      exact ⟨u, updatedAt, hu, htime, hnew, hstored⟩

omit hdeployed in
/-- A publish call goes on only on the version it expects; the first version only without a head. -/
theorem expected_of_checks {request : PublishRequest} {object : Option VersionedObject}
    {head : Option ManifestHead} (hparse : parseHeadObject setup object = .ok head)
    (hcheck : checkAgainstHead request head = .ok ())
    (hfirst : request.expectedCurrentVersion = none → request.manifest.versionId = 1) :
    head.map (·.versionId) = request.expectedCurrentVersion := by
  have hrest := (check_bind_eq_ok.mp hcheck).2
  cases hexpected : request.expectedCurrentVersion with
  | some e =>
      simp only [hexpected] at hrest
      exact not_not.mp (rejectIf_eq_ok.mp (check_bind_eq_ok.mp hrest).1)
  | none =>
      cases head with
      | none => rfl
      | some found =>
          -- a head that parses names a positive version
          simp only [hexpected] at hrest
          have hlt : ¬request.manifest.versionId ≤ found.versionId := rejectIf_eq_ok.mp hrest
          rw [hfirst hexpected] at hlt
          cases object with
          | none => cases hparse
          | some o =>
              obtain ⟨parsed, hparsed, hfound⟩ := map_eq_ok.mp hparse
              obtain rfl := Option.some.inj hfound
              obtain ⟨-, hpositive, -⟩ := ManifestHead.fromJson_eq_ok_iff.mp (parseHead_eq_ok_iff.mp hparsed)
              exfalso
              apply hpositive
              have hsmall := UInt64.lt_iff_toNat_lt.mp (UInt64.not_le.mp hlt)
              rw [show (1 : UInt64).toNat = 1 from rfl] at hsmall
              exact UInt64.toNat_inj.mp (by
                rw [show (0 : UInt64).toNat = 0 from rfl]
                omega)

/-- What a publish call has checked when it starts to upload. -/
structure PublishOpened (setup : Setup) (request : PublishRequest)
    (opened : Option VersionedObject × Option ManifestHead) : Prop where
  parses : parseHeadObject setup opened.1 = .ok opened.2
  positive : request.manifest.versionId ≠ 0
  time : minPlausibleEpochMillis ≤ request.updatedAt
  expected : opened.2.map (·.versionId) = request.expectedCurrentVersion

theorem safe_openBuilt {request : PublishRequest} (hstable : (buildContract setup env).Stable t P)
    (hfirst : request.expectedCurrentVersion = none → request.manifest.versionId = 1) (hw : P w) :
    (buildContract setup env).Safe t (openPublish setup request).run
      (Outcome (fun opened w' => P w' ∧ HeadSeen setup opened.1 w' ∧ PublishOpened setup request opened)
        fun _ _ => True) w := by
  unfold openPublish
  -- the manifest and the time are checked before anything is read
  refine bindCheck (fun _ _ w₁ hrely₁ hinv₁ => ?_) fun _ _ _ _ _ => trivial
  have hw₁ := hstable w w₁ hrely₁ hinv₁ hw
  refine bindCheck (fun _ htime w₂ hrely₂ hinv₂ => ?_) fun _ _ _ _ _ => trivial
  refine bindExcept ((safe_readHeadSeen hdeployed hstable (hstable w₁ w₂ hrely₂ hinv₂ hw₁)).mono
    fun r w₃ _ hr => ?_)
  cases r with
  | error e => trivial
  | ok object =>
      -- the head is parsed, and compared with what the request expects
      refine bindCheck (fun head hparse w₄ hrely₄ hinv₄ => ?_) fun _ _ _ _ _ => trivial
      refine bindCheck (fun _ hcheck w₅ hrely₅ hinv₅ => ?_) fun _ _ _ _ _ => trivial
      refine pureExcept fun w₆ hrely₆ hinv₆ => ?_
      have hrely : (buildContract setup env).Rely t w₃ w₆ := hrely₄.trans (hrely₅.trans hrely₆)
      refine ⟨hstable w₃ w₆ hrely hinv₆ hr.1, hr.2.grows hrely.1, hparse, ?_, ?_,
        expected_of_checks hparse hcheck hfirst⟩
      · exact rejectIf_eq_ok.mp (check_bind_eq_ok.mp hcheck).1
      · exact not_lt.mp (rejectIf_eq_ok.mp htime)

theorem safe_shardKeys {shard : ShardManifest} (hstable : (buildContract setup env).Stable t P)
    (hlance : ∀ key, s3Key shard.lancePath = .ok key → key = lanceShardKey v)
    (htantivy : ∀ key, s3Key shard.tantivyPath = .ok key → key = tantivyShardKey v) (hw : P w) :
    (buildContract setup env).Safe t (prepareShard shard).run
      (Outcome (fun keys w' => keys = [lanceShardKey v, tantivyShardKey v] ∧ P w') fun _ _ => True) w := by
  have hask : ∀ {op : Op} {w₁ : Annals}, Quiet op → P w₁ →
      (buildContract setup env).Safe t (call op) (fun _ => P) w₁ :=
    fun hop hw₁ => safe_quiet hdeployed (Prog.within_ask hop) hstable hw₁
  unfold prepareShard
  refine bindCheck (fun lanceKey hlanceKey w₁ hrely₁ hinv₁ => ?_) fun _ _ _ _ _ => trivial
  refine bindCheck (fun tantivyKey htantivyKey w₂ hrely₂ hinv₂ => ?_) fun _ _ _ _ _ => trivial
  have hw₂ := hstable w w₂ (hrely₁.trans hrely₂) hinv₂ hw
  have hsource : ∀ key, Quiet (.sourcePath key) := fun _ => trivial
  have htree : ∀ key, Quiet (.inspectTree key) := fun _ => trivial
  -- the sources of both directories are found and their trees inspected, which changes nothing
  refine bindAny (hask (hsource _) hw₂) (fun _ w₃ _ hw₃ => ?_) fun _ _ _ _ => trivial
  refine bindAny (hask (hsource _) hw₃) (fun _ w₄ _ hw₄ => ?_) fun _ _ _ _ => trivial
  refine bindAny (hask (htree _) hw₄) (fun _ w₅ _ hw₅ => ?_) fun _ _ _ _ => trivial
  refine bindAny (hask (htree _) hw₅) (fun _ w₆ _ hw₆ => ?_) fun _ _ _ _ => trivial
  refine pureExcept fun w₇ hrely₇ hinv₇ => ⟨?_, hstable w₆ w₇ hrely₇ hinv₇ hw₆⟩
  rw [hlance _ hlanceKey, htantivy _ htantivyKey]

theorem safe_builtArtifacts {manifest : IndexManifest} (hstable : (buildContract setup env).Stable t P)
    (hmanifest : ManifestFor v manifest) (hw : P w) :
    (buildContract setup env).Safe t (openArtifacts setup t manifest).run
      (Outcome (fun keys w' => keys = [lanceShardKey v, tantivyShardKey v] ∧ P w') fun _ _ => True) w := by
  obtain ⟨shard, hshards, hlance, htantivy⟩ := hmanifest.shards
  unfold openArtifacts
  refine bindCheck (fun _ _ w₁ hrely₁ hinv₁ => ?_) fun _ _ _ _ _ => trivial
  have hsource : (call (.sourcePath (versionManifestKey manifest.versionId))).Within Quiet :=
    Prog.within_ask trivial
  refine bindAny (safe_quiet hdeployed hsource hstable (hstable w w₁ hrely₁ hinv₁ hw))
    (fun _ w₂ _ hw₂ => ?_) fun _ _ _ _ => trivial
  have hread : (call (.readFile (versionManifestKey manifest.versionId))).Within Quiet :=
    Prog.within_ask trivial
  refine bindAny (safe_quiet hdeployed (within_mapError hread) hstable hw₂) (fun content w₃ _ hw₃ => ?_)
    fun _ _ _ _ => trivial
  refine bindCheck (fun _ _ w₄ hrely₄ hinv₄ => ?_) fun _ _ _ _ _ => trivial
  -- a build has one shard
  rw [hshards]
  unfold prepareShards
  refine bindExcept ((safe_shardKeys hdeployed hstable hlance htantivy
    (hstable w₃ w₄ hrely₄ hinv₄ hw₃)).mono fun r w₅ _ hr => ?_)
  cases r with
  | error e => trivial
  | ok keys =>
      obtain ⟨rfl, hw₅⟩ := hr
      refine pureExcept fun w₆ hrely₆ hinv₆ => ⟨?_, hstable w₅ w₆ hrely₆ hinv₆ hw₅⟩
      exact List.append_nil _

end Checks

/-! ## The uploads -/

/-- Where no file of the directory is uploaded to the key of a manifest. -/
theorem copyTree_quiet {key : String} (hkey : ∀ name u, childKey key name ≠ versionManifestKey u)
    (segments : List String) (files : List (String × ByteArray)) :
    (copyTree key segments files).run.Within Quiet := by
  induction files with
  | nil => trivial
  | cons f rest ih =>
      have hcopy : Quiet (.copyFile (childKey key f.1) { bytes := f.2, segments }) := hkey f.1
      apply Prog.Within.bindExcept (Prog.within_ask hcopy)
      exact fun _ => ih

theorem uploadDirectory_quiet (hdeployed : LocalDeployment setup) {key : String}
    (hkey : ∀ name u, childKey key name ≠ versionManifestKey u) :
    (uploadDirectory setup key).run.Within Quiet := by
  have hcopy : (localCopyTree key).run.Within Quiet := by
    unfold localCopyTree
    apply Prog.Within.bindExcept (Prog.within_ask trivial)
    intro found
    apply Prog.Within.bindExcept (Prog.within_ask trivial)
    exact fun _ => copyTree_quiet hkey _ _
  unfold uploadDirectory
  simp only [hdeployed.backend]
  apply Prog.Within.bindExcept (within_check _)
  intro _
  refine ⟨trivial, fun present => ?_⟩
  cases present with
  | true => trivial
  | false => exact within_mapError hcopy

theorem uploadDirectories_quiet (hdeployed : LocalDeployment setup) {keys : List String}
    (hkeys : ∀ key ∈ keys, ∀ name u, childKey key name ≠ versionManifestKey u) :
    (uploadDirectories setup keys).run.Within Quiet := by
  induction keys with
  | nil => trivial
  | cons key rest ih =>
      apply Prog.Within.bindExcept (uploadDirectory_quiet hdeployed (hkeys key List.mem_cons_self))
      exact fun _ => ih fun k hk => hkeys k (List.mem_cons_of_mem _ hk)

/-- The manifest of a version was written into the store. -/
structure PutManifest (v : UInt64) (cell : Cell) (w w' : Annals) : Prop where
  objects : ∀ u, w'.world.objects (versionManifestKey u) =
    if u = v then some cell else w.world.objects (versionManifestKey u)
  roots : w'.world.roots = w.world.roots
  queue : w'.world.queue = w.world.queue
  allocation : w'.allocation = w.allocation
  snapshots : w'.snapshots = w.snapshots

namespace PutManifest

variable {cell : Cell}

theorem grows (h : PutManifest v cell w w')
    (hsame : ∀ found, w.world.objects (versionManifestKey v) = some found →
      cell.content.segments = found.content.segments) : Grows w w' where
  snapshots := h.snapshots ▸ List.prefix_refl _
  opened := by
    show w.world.queue.ledger.opened <+: w'.world.queue.ledger.opened
    rw [h.queue]
  enqueued := by
    show w.world.queue.ledger.enqueued <:+ w'.world.queue.ledger.enqueued
    rw [h.queue]
  stored u found hfound := by
    by_cases hu : u = v
    · subst hu
      exact ⟨cell, by rw [h.objects, if_pos rfl], hsame found hfound⟩
    · exact ⟨found, by rw [h.objects, if_neg hu]; exact hfound, rfl⟩

theorem entry_eq (h : PutManifest v cell w w') (key : String) : w'.entry setup key = w.entry setup key := by
  unfold Annals.entry
  rw [h.roots]

/-- A manifest may be stored by its mover, over one of the same snapshot at most. -/
theorem keeps (hdeployed : LocalDeployment setup) (hinv : BuildInv setup env w)
    (h : PutManifest v cell w w') (hbuilt : BuiltVersion setup t v cell.content.segments w) :
    (buildContract setup env).Keeps t w w' := by
  obtain ⟨item, hitem, hmover, hsegments⟩ := hbuilt
  have hgrows : Grows w w' := by
    refine h.grows fun found hfound => ?_
    obtain ⟨item', hitem', hsame⟩ := hinv.stored v found hfound
    -- what is stored already is a copy of the same moved manifest
    obtain rfl : item = item' := Option.some.inj (hitem.symm.trans hitem')
    exact hsegments.symm.trans hsame
  refine ⟨?_, hgrows, fun t' hne => ⟨fun key found _ => ?_, ?_⟩⟩
  · apply inv_of_files hdeployed hinv hgrows h.queue h.snapshots
    · intro u found hfound
      rw [h.entry_eq] at hfound
      obtain ⟨l, hl, hlmover⟩ := hinv.locked u found hfound
      exact ⟨l, (h.entry_eq _).trans hl, hlmover⟩
    · intro u found hfound
      rw [h.objects] at hfound
      by_cases hu : u = v
      · subst hu
        rw [if_pos rfl] at hfound
        cases hfound
        exact ⟨item, (h.entry_eq _).trans hitem, hsegments⟩
      · rw [if_neg hu] at hfound
        obtain ⟨kept, hkept, hsame⟩ := hinv.stored u found hfound
        exact ⟨kept, (h.entry_eq _).trans hkept, hsame⟩
  · rw [h.entry_eq]
  · rw [h.allocation]

end PutManifest

/-- A copy to the key of a manifest: nothing has happened, or the manifest is there, whole or torn. -/
theorem apply_copyFile (content : Content) (c : Choice) (w : Annals) :
    (SameBooks w ((annalist setup).apply t (.copyFile (versionManifestKey v) content) c w).2 ∧
        ((annalist setup).apply t (.copyFile (versionManifestKey v) content) c w).1 ≠ .ok ()) ∨
      ∃ cell, cell.content.segments = content.segments ∧
        PutManifest v cell w ((annalist setup).apply t (.copyFile (versionManifestKey v) content) c w).2 := by
  have hput : ∀ cell : Cell, PutManifest v cell w { w with
      world := World.noteActivation setup t (w.world.putCell (versionManifestKey v) cell) w.world } := by
    intro cell
    refine ⟨fun u => ?_, World.roots_noteActivation, World.queue_noteActivation, rfl, rfl⟩
    show (World.noteActivation setup t _ w.world).objects _ = _
    rw [World.objects_noteActivation, World.objects_putCell]
    by_cases hu : u = v
    · rw [if_pos (congrArg _ hu), if_pos hu]
    · rw [if_neg fun h => hu (versionManifestKey_inj.mp h), if_neg hu]
  have happly : (annalist setup).apply t (.copyFile (versionManifestKey v) content) c w =
      ((w.world.copyFileAt t (versionManifestKey v) content c).1, { w with
        world := World.noteActivation setup t (w.world.copyFileAt t (versionManifestKey v) content c).2
          w.world }) := rfl
  rw [happly]
  -- a copy that fails may still leave a torn file, with the segments of the manifest
  unfold World.copyFileAt
  by_cases hfails : c.fails = true
  · simp only [if_pos hfails]
    cases c.torn with
    | none =>
        left
        simp only [World.noteActivation_self]
        exact ⟨⟨fun _ => rfl, rfl, rfl, rfl, rfl⟩, nofun⟩
    | some bytes =>
        right
        exact ⟨{ content := { content with bytes }, writer := t }, rfl, hput _⟩
  · right
    simp only [if_neg hfails]
    exact ⟨{ content, writer := t }, rfl, hput _⟩

section Uploads

variable (hdeployed : LocalDeployment setup)

include hdeployed

/-- The upload of a manifest that succeeds has stored the one that the worker moved. -/
theorem safe_uploadBuilt (hw : Publishing setup t v listed expected w) :
    (buildContract setup env).Safe t (uploadFile setup t (versionManifestKey v)).run
      (Outcome (fun _ w' => Publishing setup t v listed expected w' ∧ Stored v listed w') fun _ _ => True) w := by
  have hstable : (buildContract setup env).Stable t (Publishing setup t v listed expected) := Publishing.stable
  unfold uploadFile
  simp only [hdeployed.backend]
  refine bindCheck (fun _ _ w₁ hrely₁ hinv₁ => ?_) fun _ _ _ _ _ => trivial
  -- the probe may miss what is there; the mover of the manifest stores the same snapshot again then
  have hexists : (call (.storedExists (versionManifestKey v))).Within Quiet := Prog.within_ask trivial
  refine bindExcept (liftExcept ((safe_quiet hdeployed hexists hstable
    (hstable w w₁ hrely₁ hinv₁ hw)).mono fun present w₂ hinv₂ hw₂ => ?_))
  cases present with
  | true => exact fun _ _ _ => trivial
  | false =>
      refine mapErrorExcept ?_
      -- what is read is the manifest that was moved
      have hread : (buildContract setup env).Safe t (call (.readFile (versionManifestKey v)))
          (Outcome (fun content w' => content.segments = listed ∧
            Publishing setup t v listed expected w') fun _ _ => True) w₂ := by
        apply Contract.Safe.ask hstable hw₂
        intro w₃ c hinv₃ hw₃ _
        have hquiet : Quiet (.readFile (versionManifestKey v)) := trivial
        have hsame : SameBooks w₃ ((annalist setup).apply t (.readFile (versionManifestKey v)) c w₃).2 :=
          sameBooks_quiet hquiet c
        refine ⟨hsame.keeps hdeployed hinv₃, fun w₄ hrely₄ hinv₄ => ?_⟩
        have hw₄ := hstable _ _ (hsame.rely.trans hrely₄) hinv₄ hw₃
        cases hanswer : ((annalist setup).apply t (.readFile (versionManifestKey v)) c w₃).1 with
        | error e => trivial
        | ok content =>
            refine ⟨?_, hw₄⟩
            obtain ⟨mover, hroot⟩ := World.readFile_eq_ok hanswer
            obtain ⟨item, hitem, -, hsegments⟩ := hw₃.built
            rw [hdeployed.root t] at hroot
            obtain rfl := Option.some.inj (hroot.symm.trans hitem)
            exact hsegments
      refine bindExcept (hread.mono fun r w₃ _ hr => ?_)
      cases r with
      | error e => trivial
      | ok content =>
          obtain ⟨hsegments, hw₃⟩ := hr
          apply Contract.Safe.ask hstable hw₃
          intro w₄ c hinv₄ hw₄ _
          -- the copy: without effect, or the manifest is there and stays the one of this mover
          obtain ⟨hsame, hfailed⟩ | ⟨cell, hcell, hput⟩ :=
            @apply_copyFile setup t v content c w₄
          · refine ⟨hsame.keeps hdeployed hinv₄, fun w₅ _ _ => ?_⟩
            cases hanswer : ((annalist setup).apply t (.copyFile (versionManifestKey v) content) c w₄).1 with
            | error e => trivial
            | ok _ => exact absurd hanswer hfailed
          · have hbuilt : BuiltVersion setup t v cell.content.segments w₄ := by
              rw [hcell, hsegments]
              exact hw₄.built
            have hkeeps : (buildContract setup env).Keeps t w₄
                ((annalist setup).apply t (.copyFile (versionManifestKey v) content) c w₄).2 :=
              hput.keeps hdeployed hinv₄ hbuilt
            refine ⟨hkeeps, fun w₅ hrely₅ hinv₅ => ?_⟩
            have hafter : Publishing setup t v listed expected
                ((annalist setup).apply t (.copyFile (versionManifestKey v) content) c w₄).2 := by
              obtain ⟨item, hitem, hmover, hsame⟩ := hw₄.built
              exact ⟨hw₄.allocated.of_grows hkeeps.change (by rw [hput.allocation]),
                item, (hput.entry_eq _).trans hitem, hmover, hsame⟩
            have hstored : Stored v listed
                ((annalist setup).apply t (.copyFile (versionManifestKey v) content) c w₄).2 :=
              ⟨cell, by rw [hput.objects, if_pos rfl], hcell.trans hsegments⟩
            cases ((annalist setup).apply t (.copyFile (versionManifestKey v) content) c w₄).1 with
            | error e => trivial
            | ok _ => exact ⟨hstable _ _ hrely₅ hinv₅ hafter, hstored.grows hrely₅.1⟩

end Uploads

/-! ## The swap -/

/-- The head was swapped, and that is written down. -/
structure SwappedHead (setup : Setup) (t : Nat) (object : Option VersionedObject) (newValue : ByteArray)
    (w w' : Annals) : Prop where
  objects : w'.world.objects = w.world.objects
  roots : w'.world.roots = w.world.roots
  queue : w'.world.queue =
    { w.world.queue with db := { w.world.queue.db with activeHead := some newValue } }
  allocation : w'.allocation = w.allocation
  snapshots : w'.snapshots = w.snapshots ++ [{
    caller := {
      worker := t
      allocation := w.allocation t
      collided := decide (w.world.headBytes setup ≠ object.map (·.bytes)) }
    replaced := w.world.active setup
    written := w'.world.activeSnapshot setup }]

theorem apply_swapHead (hdeployed : LocalDeployment setup) (object : Option VersionedObject)
    (newValue : ByteArray) (c : Choice) (w : Annals) :
    (∃ w', (annalist setup).apply t (.swapHead object newValue) c w = (.ok true, w') ∧
        SwappedHead setup t object newValue w w') ∨
      ∃ answer w', (annalist setup).apply t (.swapHead object newValue) c w = (answer, w') ∧
        answer ≠ .ok true ∧ SameBooks w w' := by
  have happly : (annalist setup).apply t (.swapHead object newValue) c w =
      let result := w.world.swapHeadAt setup t object newValue c
      let after := World.noteActivation setup t result.2 w.world
      (result.1, { w with
        world := after
        snapshots := noteActivated setup t w.world after (w.allocation t) (.swapHead object newValue)
          result.1 w.snapshots }) := rfl
  rw [happly]
  unfold World.swapHeadAt
  simp only [hdeployed.backend]
  have hsame : ∀ world : World, world.objects = w.world.objects → world.roots = w.world.roots →
      world.queue = w.world.queue → SameBooks w { w with world } := by
    intro world hobjects hroots hqueue
    exact ⟨fun v => by rw [hobjects], hroots, hqueue, rfl, rfl⟩
  -- only an answer `true` has written anything: the write is one transaction
  cases hcas : headRowCas c.sql .activeHead (object.map (·.etag)) newValue w.world.queue.db with
  | error e db =>
      obtain rfl := atomic_headRowCas _ _ _ _ _ hcas
      right
      exact ⟨_, _, rfl, nofun, hsame _ World.objects_noteActivation World.roots_noteActivation
        World.queue_noteActivation⟩
  | ok swapped db =>
      cases swapped with
      | false =>
          obtain ⟨-, rfl⟩ := headRowCas_false hcas
          right
          exact ⟨_, _, rfl, nofun, hsame _ World.objects_noteActivation World.roots_noteActivation
            World.queue_noteActivation⟩
      | true =>
          obtain ⟨-, rfl⟩ := headRowCas_true hcas
          left
          refine ⟨_, rfl, ?_, ?_, ?_, rfl, rfl⟩
          · show (World.noteActivation setup t _ w.world).objects = _
            rw [World.objects_noteActivation, World.objects_noteSwap]
            rfl
          · show (World.noteActivation setup t _ w.world).roots = _
            rw [World.roots_noteActivation, World.roots_noteSwap]
            rfl
          · show (World.noteActivation setup t _ w.world).queue = _
            rw [World.queue_noteActivation, World.queue_noteSwap]
            rfl

/-- The queue does not know the head. -/
theorem QueueBooks.of_jobs (h : QueueBooks setup w) (hgrows : Grows w w')
    (hjobs : w'.world.queue.db.buildJobs = w.world.queue.db.buildJobs)
    (hdead : w'.world.queue.db.deadJobs = w.world.queue.db.deadJobs)
    (hledger : w'.world.queue.ledger = w.world.queue.ledger) : QueueBooks setup w' := by
  have hjob : ∀ b, w'.world.queue.db.job b = w.world.queue.db.job b := fun b => congrArg (·.get b) hjobs
  have hdead' : ∀ b, w'.world.queue.db.dead b = w.world.queue.db.dead b := fun b => congrArg (·.get b) hdead
  obtain ⟨hq, hplaced, hopened, hsettled⟩ := h
  refine ⟨?_, hplaced.of_same_places (fun b => by rw [hjob]) hdead (by rw [hledger]) (by rw [hledger])
    (by rw [hledger]), fun d hd => ?_, fun d hd => ?_⟩
  · exact {
      held := by
        simp only [hjob, hledger]
        exact hq.held
      claimed := by
        simp only [hjob, hledger]
        exact hq.claimed
      unique := by
        simp only [hjob]
        exact hq.unique
      issued := by
        simp only [hjob, hledger]
        exact hq.issued
      attempts := by
        simp only [hjob, hledger]
        exact hq.attempts
      body := by
        simp only [hjob, hledger]
        exact hq.body
      dead := by
        simp only [hdead']
        exact hq.dead }
  · show d ∈ w'.world.queue.ledger.opened
    rw [hledger] at hd ⊢
    exact hopened d hd
  · rw [hledger] at hd
    obtain ⟨batch, hbatch, hid, hkey⟩ := hsettled d hd
    exact ⟨batch, hgrows.enqueued.subset hbatch, hid, hkey.grows hgrows⟩

section Swap

variable (hdeployed : LocalDeployment setup)

include hdeployed

/-- What is known of the head a publisher has read: it is the one the worker allocated on. -/
theorem replaced_eq_based {request : PublishRequest} {opened : Option VersionedObject × Option ManifestHead}
    (hopened : PublishOpened setup request opened) (hseen : HeadSeen setup opened.1 w)
    (hsame : w.world.headBytes setup = opened.1.map (·.bytes)) {based : List String}
    (hnone : request.expectedCurrentVersion = none → based = [])
    (hsome : ∀ e, request.expectedCurrentVersion = some e → w.world.snapshot e = based) :
    (w.world.active setup).getD [] = based := by
  obtain ⟨object, head⟩ := opened
  cases object with
  | none =>
      -- no head was read, so none was expected, and nothing was active at the allocation
      obtain rfl := Except.ok.inj hopened.parses
      have hhead : w.world.headBytes setup = none := hsame
      have hbased : based = [] := hnone hopened.expected.symm
      unfold World.active
      rw [hhead, hbased]
      rfl
  | some o =>
      obtain ⟨u, updatedAt, hu, htime, hbytes, -⟩ := hseen o rfl
      have hhead : w.world.headBytes setup = some (setup.head.toVec (.new u updatedAt)) := by
        rw [hsame, ← hbytes]
        rfl
      obtain ⟨parsed, hparsed, rfl⟩ := map_eq_ok.mp hopened.parses
      have hnew := parseHead_eq_ok_iff.mp hparsed
      rw [hbytes, ManifestHead.fromJson_new hdeployed.head hu htime] at hnew
      obtain rfl := Except.ok.inj hnew
      have hexpected : request.expectedCurrentVersion = some u := hopened.expected.symm
      unfold World.active
      rw [hhead, Option.map_some, Option.getD_some, activeSnapshot_new hdeployed hu htime hhead]
      exact hsome u hexpected

/-- The swap keeps the contract, and its snapshot is what the worker had listed. -/
theorem keeps_swappedHead {request : PublishRequest} {opened : Option VersionedObject × Option ManifestHead}
    (hinv : BuildInv setup env w) (hopened : PublishOpened setup request opened)
    (hseen : HeadSeen setup opened.1 w)
    (hallocated : Allocated t listed request.expectedCurrentVersion w)
    (hstored : Stored request.manifest.versionId listed w)
    (hswap : SwappedHead setup t opened.1
      (setup.head.toVec (.new request.manifest.versionId request.updatedAt)) w w') :
    (buildContract setup env).Keeps t w w' ∧ ∃ s ∈ w'.snapshots, s.written = listed := by
  have hgrows : Grows w w' := by
    refine ⟨?_, ?_, ?_, fun u cell hcell => ⟨cell, hswap.objects ▸ hcell, rfl⟩⟩
    · rw [hswap.snapshots]
      exact List.prefix_append _ _
    · show w.world.queue.ledger.opened <+: w'.world.queue.ledger.opened
      rw [hswap.queue]
    · show w.world.queue.ledger.enqueued <:+ w'.world.queue.ledger.enqueued
      rw [hswap.queue]
  have hhead : w'.world.headBytes setup =
      some (setup.head.toVec (.new request.manifest.versionId request.updatedAt)) := by
    rw [headBytes_eq hdeployed, hswap.queue]
  have hwritten : w'.world.activeSnapshot setup = listed := by
    obtain ⟨cell, hcell, hsegments⟩ := hstored
    rw [activeSnapshot_new hdeployed hopened.positive hopened.time hhead]
    unfold World.snapshot
    rw [hswap.objects, hcell]
    exact hsegments
  have hentry : ∀ key, w'.entry setup key = w.entry setup key := fun key => by
    unfold Annals.entry
    rw [hswap.roots]
  refine ⟨⟨⟨fun u item hitem => ?_, fun u cell hcell => ?_, fun bytes hbytes => ?_, ?_, fun s hs => ?_,
    fun hfresh => ?_⟩, hgrows, fun t' _ => ⟨fun key _ _ => by rw [hentry],
      by rw [hswap.allocation]⟩⟩, ?_⟩
  · rw [hentry] at hitem
    obtain ⟨l, hl, hmover⟩ := hinv.locked u item hitem
    exact ⟨l, (hentry _).trans hl, hmover⟩
  · rw [hswap.objects] at hcell
    obtain ⟨item, hitem, hsegments⟩ := hinv.stored u cell hcell
    exact ⟨item, (hentry _).trans hitem, hsegments⟩
  · -- the new head names a version whose manifest is stored
    obtain rfl := Option.some.inj (hhead.symm.trans hbytes)
    obtain ⟨cell, hcell, -⟩ := hstored
    refine ⟨_, _, hopened.positive, hopened.time, rfl, ?_⟩
    rw [hswap.objects, hcell]
    rfl
  · have hactive : w'.world.active setup = some (w'.world.activeSnapshot setup) := by
      unfold World.active
      rw [hhead]
      rfl
    rw [hactive, hswap.snapshots]
    exact hinv.chained.concat rfl
  · rw [hswap.snapshots] at hs
    rcases List.mem_append.mp hs with hs | hs
    · exact hinv.made s hs
    · obtain rfl := List.mem_singleton.mp hs
      -- the new swap: without a collision the head is the one read, so what it replaces is the base
      obtain ⟨based, hnoted, hnone, hsome⟩ := hallocated
      refine ⟨_, hnoted, hwritten, fun hcollided => ?_⟩
      have hsame : w.world.headBytes setup = opened.1.map (·.bytes) := by
        simpa using hcollided
      exact replaced_eq_based hdeployed hopened hseen hsame hnone fun e he => (hsome e he).1
  · refine (hinv.queue (hfresh.of_grows hgrows)).of_jobs hgrows ?_ ?_ ?_ <;> rw [hswap.queue]
  · exact ⟨_, hswap.snapshots ▸ List.mem_append_right _ (List.mem_singleton_self _), hwritten⟩

/-- What a publish call that is answered with success has done. -/
def ActivatedWith (listed : List String) (w : Annals) : Prop := ∃ s ∈ w.snapshots, s.written = listed

omit hdeployed in
theorem ActivatedWith.grows (h : ActivatedWith listed w) (hgrows : Grows w w') : ActivatedWith listed w' := by
  obtain ⟨s, hs, hwritten⟩ := h
  exact ⟨s, hgrows.snapshots.subset hs, hwritten⟩

theorem safe_activateBuilt {request : PublishRequest}
    {opened : Option VersionedObject × Option ManifestHead} (hopened : PublishOpened setup request opened)
    (hseen : HeadSeen setup opened.1 w) (hstored : Stored request.manifest.versionId listed w)
    (hw : Allocated t listed request.expectedCurrentVersion w) :
    (buildContract setup env).Safe t
      (activate setup "publish" request.manifest.versionId request.updatedAt request.expectedCurrentVersion
        opened.1 opened.2).run
      (Outcome (fun _ w' => ActivatedWith listed w') fun _ _ => True) w := by
  have hstable : (buildContract setup env).Stable t fun w =>
      Allocated t listed request.expectedCurrentVersion w ∧ HeadSeen setup opened.1 w ∧
        Stored request.manifest.versionId listed w := fun w w' hrely hinv h =>
    ⟨Allocated.stable w w' hrely hinv h.1, h.2.1.grows hrely.1, h.2.2.grows hrely.1⟩
  unfold activate
  refine bindExcept (Contract.Safe.ask hstable ⟨hw, hseen, hstored⟩ ?_)
  rintro w₁ c hinv₁ ⟨hallocated₁, hseen₁, hstored₁⟩ _
  -- the swap went through, or the call fails and has changed nothing
  rcases apply_swapHead (t := t) hdeployed opened.1
      (setup.head.toVec (.new request.manifest.versionId request.updatedAt)) c w₁ with
    ⟨w₁', happly, hswap⟩ | ⟨answer, w₁', happly, hanswer, hsame⟩
  · rw [happly]
    obtain ⟨hkeeps, hactivated⟩ := keeps_swappedHead hdeployed hinv₁ hopened hseen₁ hallocated₁ hstored₁ hswap
    refine ⟨hkeeps, fun w₂ hrely₂ _ => pureExcept fun w₃ hrely₃ _ => ?_⟩
    exact ActivatedWith.grows hactivated (hrely₂.1.trans hrely₃.1)
  · rw [happly]
    refine ⟨hsame.keeps hdeployed hinv₁, fun w₂ _ _ => ?_⟩
    cases answer with
    | error e => trivial
    | ok swapped =>
        cases swapped with
        | true => exact absurd rfl hanswer
        | false =>
            -- the call reads the head once more, for its message
            have hquiet : (observedHeadVersion setup).run.Within Quiet := by
              unfold observedHeadVersion
              apply Prog.Within.bindExcept (Prog.within_ask trivial)
              intro object
              apply Prog.Within.bindExcept (within_check _)
              exact fun _ => trivial
            have htrue : (buildContract setup env).Stable t fun _ => True := fun _ _ _ _ _ => trivial
            refine bindAny (safe_quiet hdeployed hquiet htrue trivial) (fun _ _ _ _ => ?_) fun _ _ _ _ => trivial
            exact throwExcept fun _ _ _ => trivial

/-- The publication of a build activates a snapshot of what the worker had listed, or fails. -/
theorem safe_publishBuilt {request : PublishRequest} (hmanifest : ManifestFor v request.manifest)
    (hfirst : request.expectedCurrentVersion = none → request.manifest.versionId = 1)
    (hw : Publishing setup t v listed request.expectedCurrentVersion w) :
    (buildContract setup env).Safe t (publish setup t request).run
      (Outcome (fun _ w' => ActivatedWith listed w') fun _ _ => True) w := by
  have hstable : (buildContract setup env).Stable t
      (Publishing setup t v listed request.expectedCurrentVersion) := Publishing.stable
  unfold publish
  refine bindExcept ((safe_openBuilt hdeployed hstable hfirst hw).mono fun r w₁ _ hr => ?_)
  cases r with
  | error e => trivial
  | ok opened =>
      obtain ⟨hw₁, hseen₁, hopened⟩ := hr
      have hboth : (buildContract setup env).Stable t fun w =>
          Publishing setup t v listed request.expectedCurrentVersion w ∧ HeadSeen setup opened.1 w :=
        fun w w' hrely hinv h => ⟨hstable w w' hrely hinv h.1, h.2.grows hrely.1⟩
      refine bindExcept ((safe_builtArtifacts hdeployed hboth hmanifest ⟨hw₁, hseen₁⟩).mono
        fun r w₂ _ hr => ?_)
      cases r with
      | error e => trivial
      | ok keys =>
          obtain ⟨rfl, hw₂⟩ := hr
          -- a file of a shard directory never goes to the key of a manifest
          have hkeys : ∀ key ∈ [lanceShardKey v, tantivyShardKey v], ∀ name u,
              childKey key name ≠ versionManifestKey u := by
            intro key hkey name u
            rcases List.mem_pair.mp hkey with rfl | rfl
            · exact (keyOf_lance_child v name).ne (keyOf_manifest u) (.inl (by decide))
            · exact (keyOf_tantivy_child v name).ne (keyOf_manifest u) (.inl (by decide))
          refine bindAny (safe_quiet hdeployed (uploadDirectories_quiet hdeployed hkeys) hboth hw₂)
            (fun _ w₃ _ hw₃ => ?_) fun _ _ _ _ => trivial
          -- what was read of the head stays a head that names a stored version
          have hupload : (buildContract setup env).Safe t (uploadFile setup t (versionManifestKey v)).run
              (Outcome (fun _ w' => Publishing setup t v listed request.expectedCurrentVersion w' ∧
                Stored v listed w') fun _ _ => True) w₃ := safe_uploadBuilt hdeployed hw₃.1
          have hkept : ∀ {w w' : Annals}, Grows w w' → HeadSeen setup opened.1 w → HeadSeen setup opened.1 w' :=
            fun hgrows h => h.grows hgrows
          rw [hmanifest.version]
          refine bindExcept ((hupload.carry hkept hw₃.2).mono
            fun r w₄ _ hr => ?_)
          obtain ⟨hseen₄, hr⟩ := hr
          cases r with
          | error e => trivial
          | ok _ =>
              have hactivate : (buildContract setup env).Safe t
                  (activate setup "publish" request.manifest.versionId request.updatedAt
                    request.expectedCurrentVersion opened.1 opened.2).run
                  (Outcome (fun _ w' => ActivatedWith listed w') fun _ _ => True) w₄ :=
                safe_activateBuilt hdeployed hopened hseen₄ (hmanifest.version ▸ hr.2) hr.1.allocated
              rwa [hmanifest.version] at hactivate

end Swap

end LTSearch
