/-
# LTSearch.Indexing.RemoteActivation -- what the pointer of the bucket names is complete

Runs of `static_activate` take turns on one bucket, and may stop between any two operations.  The
contract between them: objects stay as they are (`Bucket.Grows`), and a pointer set by a run stands over
the whole release that the run verified.  A run earns the right to set its pointer object by object:
what a put answers, or what is read back after a conflict, says what lies under the key from then on.
-/
import LTSearch.Indexing.StaticActivate

namespace LTSearch

open LTSearch.Foundation Contract.Safe
open TurboQuantConfig (okOr okOr_eq_ok)

/-- The caller's expectations of a run, the `--expect-model-id` and `--expect-dim` arguments. -/
structure Expectations where
  modelId : Option String
  dim : Option UInt32

/-! ## What a complete release is -/

/-- The file `name` lies in the bucket with the size and digest that the manifest records. -/
def HoldsOutput (setup : BucketSetup) (manifest : ReleaseManifest) (b : Bucket) (name : String) :
    Prop :=
  ∃ bytes, b.objects (releaseFileKey manifest.releaseId name) = some bytes ∧
    OutputFile.describe setup.sha name bytes ∈ manifest.outputs

/-- The manifest file of the directory of run `t` lies in the bucket. -/
def HoldsManifest (setup : BucketSetup) (t : Nat) (manifest : ReleaseManifest) (b : Bucket) : Prop :=
  ∃ bytes, setup.dirOf t releaseManifestFile = some bytes ∧
    setup.manifest.fromSlice bytes = .ok manifest ∧
    b.objects (staticReleaseManifestKey manifest.releaseId) = some bytes

/-- All of the release lies in the bucket. -/
structure CompleteRelease (setup : BucketSetup) (t : Nat) (manifest : ReleaseManifest) (b : Bucket) :
    Prop where
  files : ∃ names, releaseOutputFiles manifest.turboVersion = some names ∧
    ∀ name ∈ names, HoldsOutput setup manifest b name
  manifestFile : HoldsManifest setup t manifest b

/-- The pointer names the release that run `t` verified, and all of it lies in the bucket. -/
def ActivatedBy (setup : BucketSetup) (expect : Nat → Expectations) (t : Nat) (b : Bucket) : Prop :=
  ∃ manifest updatedAt,
    verifyReleaseDir setup.sha setup.manifest (setup.pathOf t) (setup.dirOf t) (expect t).modelId
      (expect t).dim = .ok manifest ∧
    (StaticReleaseHead.new manifest.releaseId updatedAt).validate = .ok () ∧
    b.objects staticHeadKey =
      some (setup.head.toJsonPretty (StaticReleaseHead.new manifest.releaseId updatedAt)) ∧
    CompleteRelease setup t manifest b

/-- The pointer is the one found at the start, or one that a run has set over a complete release. -/
def PointerSafe (setup : BucketSetup) (expect : Nat → Expectations) (found : Option Bytes)
    (b : Bucket) : Prop :=
  match b.headWriter with
  | none => b.objects staticHeadKey = found
  | some t => ActivatedBy setup expect t b

/-- The object is a file of a release that some run verified. -/
def Brought (setup : BucketSetup) (expect : Nat → Expectations) (key : String) (bytes : Bytes) :
    Prop :=
  ∃ t manifest name,
    verifyReleaseDir setup.sha setup.manifest (setup.pathOf t) (setup.dirOf t) (expect t).modelId
      (expect t).dim = .ok manifest ∧
    (name ∈ manifest.outputs.map (·.name) ∨ name = releaseManifestFile) ∧
    key = releaseFileKey manifest.releaseId name ∧ setup.dirOf t name = some bytes

/-- What holds of the bucket whenever runs have worked on these objects. -/
structure BucketInv (setup : BucketSetup) (expect : Nat → Expectations)
    (objects : String → Option Bytes) (b : Bucket) : Prop where
  pointer : PointerSafe setup expect (objects staticHeadKey) b
  origin : ∀ key bytes, key ≠ staticHeadKey → b.objects key = some bytes →
    objects key = some bytes ∨ Brought setup expect key bytes

/-! ## The contract -/

variable {setup : BucketSetup} {expect : Nat → Expectations} {objects : String → Option Bytes}
  {t : Nat} {manifest : ReleaseManifest}

/-- What the runs promise each other. -/
def bucketContract (setup : BucketSetup) (expect : Nat → Expectations)
    (objects : String → Option Bytes) : Contract (Bucket.machine setup) where
  inv := BucketInv setup expect objects
  change := Bucket.Grows
  frame _ _ _ := True
  allowed _ _ _ _ := True
  change_refl := Bucket.Grows.refl
  change_trans := Bucket.Grows.trans
  frame_refl _ _ := trivial
  frame_trans _ _ := trivial

theorem HoldsOutput.grows {name : String} {b b' : Bucket} (h : HoldsOutput setup manifest b name)
    (hgrows : b.Grows b') : HoldsOutput setup manifest b' name := by
  obtain ⟨bytes, hstored, hmem⟩ := h
  exact ⟨bytes, hgrows _ (releaseFileKey_ne_head _ _) bytes hstored, hmem⟩

theorem HoldsManifest.grows {b b' : Bucket} (h : HoldsManifest setup t manifest b)
    (hgrows : b.Grows b') : HoldsManifest setup t manifest b' := by
  obtain ⟨bytes, hfile, hparse, hstored⟩ := h
  exact ⟨bytes, hfile, hparse, hgrows _ (releaseFileKey_ne_head _ _) bytes hstored⟩

theorem CompleteRelease.grows {b b' : Bucket} (h : CompleteRelease setup t manifest b)
    (hgrows : b.Grows b') : CompleteRelease setup t manifest b' := by
  obtain ⟨⟨names, hnames, hfiles⟩, hmanifest⟩ := h
  exact ⟨⟨names, hnames, fun name hname => (hfiles name hname).grows hgrows⟩, hmanifest.grows hgrows⟩

/-! ## What the writes keep -/

theorem pointerSafe_store {b : Bucket} {key : String} {bytes : Bytes} {found : Option Bytes}
    (hinv : PointerSafe setup expect found b) (habsent : b.objects key = none)
    (hne : key ≠ staticHeadKey) : PointerSafe setup expect found (b.store key bytes) := by
  have hhead : (b.store key bytes).objects staticHeadKey = b.objects staticHeadKey :=
    Bucket.objects_store_of_ne b bytes hne.symm
  unfold PointerSafe at hinv ⊢
  show match b.headWriter with | none => _ | some t => _
  cases hwriter : b.headWriter with
  | none =>
      rw [hwriter] at hinv
      exact hhead.trans hinv
  | some t =>
      rw [hwriter] at hinv
      obtain ⟨manifest, updatedAt, hverified, hvalid, hpointer, hcomplete⟩ := hinv
      exact ⟨manifest, updatedAt, hverified, hvalid, hhead.trans hpointer,
        hcomplete.grows (Bucket.grows_store habsent)⟩

/-- A conditional put of a file of a verified release keeps the contract; after it, what it stored
lies there. -/
theorem keeps_putAt {b : Bucket} {key : String} {bytes : Bytes} {c : BucketChoice}
    (hinv : BucketInv setup expect objects b) (hne : key ≠ staticHeadKey)
    (hbrought : Brought setup expect key bytes) :
    (bucketContract setup expect objects).Keeps t b (Bucket.putAt key bytes c b).2 ∧
      ((Bucket.putAt key bytes c b).1 = .stored →
        (Bucket.putAt key bytes c b).2.objects key = some bytes) := by
  obtain ⟨result, hput, hnot⟩ | ⟨habsent, result, hput⟩ := Bucket.putAt_cases key bytes c b
  · rw [hput]
    exact ⟨.refl hinv, fun h => absurd h hnot⟩
  · rw [hput]
    refine ⟨⟨⟨pointerSafe_store hinv.pointer habsent hne, fun key' bytes' hne' hstored => ?_⟩,
      Bucket.grows_store habsent, fun _ _ => trivial⟩, fun _ => Bucket.objects_store_self b key bytes⟩
    by_cases hkey : key' = key
    · subst hkey
      obtain rfl : bytes = bytes' :=
        Option.some.inj ((Bucket.objects_store_self b key' bytes).symm.trans hstored)
      exact .inr hbrought
    · exact hinv.origin key' bytes' hne' ((Bucket.objects_store_of_ne b bytes hkey).symm.trans hstored)

/-- A run that has its release in the bucket may set the pointer to it. -/
theorem keeps_swapHeadAt {b : Bucket} {c : BucketChoice} {expectedEtag : Option String}
    {updatedAt : Int} (hinv : BucketInv setup expect objects b)
    (hverified : verifyReleaseDir setup.sha setup.manifest (setup.pathOf t) (setup.dirOf t)
      (expect t).modelId (expect t).dim = .ok manifest)
    (hvalid : (StaticReleaseHead.new manifest.releaseId updatedAt).validate = .ok ())
    (hcomplete : CompleteRelease setup t manifest b) :
    (bucketContract setup expect objects).Keeps t b (Bucket.swapHeadAt setup t expectedEtag
      (setup.head.toJsonPretty (StaticReleaseHead.new manifest.releaseId updatedAt)) c b).2 := by
  obtain ⟨result, hswap, _⟩ | ⟨result, hswap⟩ := Bucket.swapHeadAt_cases setup t expectedEtag
    (setup.head.toJsonPretty (StaticReleaseHead.new manifest.releaseId updatedAt)) c b
  · rw [hswap]
    exact .refl hinv
  · rw [hswap]
    have hgrows := Bucket.grows_setHead b t
      (setup.head.toJsonPretty (StaticReleaseHead.new manifest.releaseId updatedAt))
    have hactivated : ActivatedBy setup expect t (b.setHead t
        (setup.head.toJsonPretty (StaticReleaseHead.new manifest.releaseId updatedAt))) :=
      ⟨manifest, updatedAt, hverified, hvalid, Bucket.objects_setHead b t _,
        hcomplete.grows hgrows⟩
    refine ⟨⟨hactivated, fun key bytes hne hstored => ?_⟩, hgrows, fun _ _ => trivial⟩
    exact hinv.origin key bytes hne ((Bucket.objects_store_of_ne b _ hne).symm.trans hstored)

/-! ## The parts of a run -/

/-- A part that has done its work leaves `Q` behind; one that failed promises nothing. -/
abbrev AfterOk {ε α : Type} (Q : Bucket → Prop) : Except ε α → Bucket → Prop :=
  Outcome (fun _ => Q) fun _ _ => True

namespace RemoteActivation

variable {b : Bucket}

/-- An operation that leaves the bucket alone. -/
theorem safe_look {op : BucketOp} {Q : op.Ans → Bucket → Prop}
    (hsame : ∀ c (b : Bucket), (Bucket.perform setup t op c b).2 = b)
    (h : ∀ b' c b'', b'.Grows b'' → Q (Bucket.perform setup t op c b').1 b'') :
    (bucketContract setup expect objects).Safe t (bucketCall op) Q b := by
  refine Contract.Safe.ask (P := fun _ => True) (fun _ _ _ _ _ => trivial) trivial
    fun b' c hinv _ _ => ?_
  have hworld : ((Bucket.machine setup).apply t op c b').2 = b' := hsame c b'
  refine ⟨.of_eq hinv hworld, fun b'' hrely _ => ?_⟩
  rw [hworld] at hrely
  exact h b' c b'' hrely.1

/-- An upload that succeeds leaves the file of the directory under the key. -/
theorem safe_bucketUploadFile {path key name : String} (hne : key ≠ staticHeadKey)
    (hbrought : ∀ bytes, setup.dirOf t name = some bytes → Brought setup expect key bytes) :
    (bucketContract setup expect objects).Safe t (bucketUploadFile path key name)
      (Outcome (fun _ b' => ∃ bytes, setup.dirOf t name = some bytes ∧
        b'.objects key = some bytes) fun _ _ => True) b := by
  unfold bucketUploadFile
  refine Contract.Safe.bind (safe_look (fun _ _ => rfl) fun b₁ c b₂ hgrows => ?_)
  cases hread : (Bucket.perform setup t (.readLocal name) c b₁).1 with
  | error error => exact Contract.Safe.done fun _ _ _ => trivial
  | ok bytes =>
      have hfile : setup.dirOf t name = some bytes := by
        simp only [Bucket.perform] at hread
        split at hread
        · cases hread
        · exact okOr_eq_ok.mp hread
      refine Contract.Safe.bind (Contract.Safe.ask (P := fun _ => True) (fun _ _ _ _ _ => trivial)
        trivial fun b₃ c hinv _ _ => ?_)
      obtain ⟨hkeeps, hstored⟩ := keeps_putAt (t := t) (c := c) hinv hne (hbrought bytes hfile)
      refine ⟨hkeeps, fun b₄ hrely _ => ?_⟩
      cases hput : ((Bucket.machine setup).apply t (.put key bytes) c b₃).1 with
      | stored =>
          have hlies : b₄.objects key = some bytes := hrely.1 key hne bytes (hstored hput)
          exact Contract.Safe.done fun b₅ hrely' _ => ⟨bytes, hfile, hrely'.1 key hne bytes hlies⟩
      | preconditionFailed => exact Contract.Safe.done fun _ _ _ => trivial
      | failed error => exact Contract.Safe.done fun _ _ _ => trivial

/-- What the read of an object answers is what lies there from then on. -/
theorem safe_readBack {key : String} (hne : key ≠ staticHeadKey) {ε : Type} {f : PublishError → ε} :
    (bucketContract setup expect objects).Safe t
      (Except.mapError f <$> bucketCall (.get key) : BucketM (Except ε (Option StoredObject)))
      (Outcome (fun stored b' => ∀ object ∈ stored, b'.objects key = some object.bytes)
        fun _ _ => True) b := by
  refine mapErrorExcept (x := ExceptT.mk (bucketCall (.get key)))
    (safe_look (fun _ _ => rfl) fun b₁ c b₂ hgrows => ?_)
  simp only [Bucket.perform]
  split
  · trivial
  · intro object hobject
    obtain ⟨bytes, hbytes, rfl⟩ := Option.map_eq_some_iff.mp hobject
    exact hgrows key hne bytes hbytes

/-- An object that passes the check has the size and digest of its entry. -/
theorem checkRemoteObject_eq_ok {sha : Sha256} {key name : String} {expected : OutputFile}
    {bytes : Bytes} {u : Unit} (hname : expected.name = name)
    (h : checkRemoteObject sha key expected bytes = .ok u) : expected = .describe sha name bytes := by
  obtain ⟨name', hash, size⟩ := expected
  obtain ⟨_, hsize, hhash⟩ := bind_eq_ok.mp h
  rw [rejectIf_eq_ok, not_not] at hsize hhash
  subst hname
  rw [OutputFile.describe, hsize, hhash]

theorem safe_verifyRemoteObject {name : String} :
    (bucketContract setup expect objects).Safe t
      (verifyRemoteObject setup.sha (releaseFileKey manifest.releaseId name) name manifest).run
      (AfterOk fun b' => HoldsOutput setup manifest b' name) b := by
  unfold verifyRemoteObject
  refine bindCheck (fun expected hexpected b₁ _ _ => ?_) fun _ _ _ _ _ => trivial
  have hfind := okOr_eq_ok.mp hexpected
  have hmem : expected ∈ manifest.outputs := List.mem_of_find?_eq_some hfind
  have hname : expected.name = name := by simpa using List.find?_some hfind
  refine bindExcept ((safe_readBack (releaseFileKey_ne_head _ _)).mono fun r b₂ _ hr => ?_)
  cases r with
  | error e => trivial
  | ok stored =>
      refine bindCheck (fun object hobject b₃ hrely _ => ?_) fun _ _ _ _ _ => trivial
      refine checkExcept (fun u hcheck b₄ hrely' _ => ?_) fun _ _ _ _ _ => trivial
      have hlies := hr object (okOr_eq_ok.mp hobject)
      rw [checkRemoteObject_eq_ok hname hcheck] at hmem
      exact HoldsOutput.grows ⟨object.bytes, hlies, hmem⟩ (hrely.1.trans hrely'.1)

/-- After one file of the release, it lies in the bucket as the manifest records it: the file of the
directory was stored, or what was found there has been checked. -/
theorem safe_uploadOutput
    (hverified : verifyReleaseDir setup.sha setup.manifest (setup.pathOf t) (setup.dirOf t)
      (expect t).modelId (expect t).dim = .ok manifest)
    {name : String} (hname : name ∈ manifest.outputs.map (·.name)) :
    (bucketContract setup expect objects).Safe t (uploadOutput setup t manifest name).run
      (AfterOk fun b' => HoldsOutput setup manifest b' name) b := by
  unfold uploadOutput
  refine bindExcept (liftExcept ((safe_bucketUploadFile (releaseFileKey_ne_head _ _) fun bytes hfile =>
    ⟨t, manifest, name, hverified, .inl hname, rfl, hfile⟩).mono fun r b₁ _ hstored => ?_))
  cases r with
  | ok u =>
      obtain ⟨bytes, hfile, hlies⟩ := hstored
      obtain ⟨output, houtput, rfl⟩ := List.mem_map.mp hname
      obtain ⟨bytes', hbytes, hdescribed⟩ := (verifyReleaseDir_eq_ok.mp hverified).1.outputs output houtput
      obtain rfl : bytes' = bytes := Option.some.inj (hbytes.symm.trans hfile)
      rw [hdescribed] at houtput
      exact pureExcept fun b₂ hrely _ => HoldsOutput.grows ⟨bytes', hlies, houtput⟩ hrely.1
  | error error =>
      show (bucketContract setup expect objects).Safe t
        (ExceptT.run (if isCreateOnlyConflict error then _ else _)) _ _
      split
      · exact safe_verifyRemoteObject
      · exact throwExcept fun _ _ _ => trivial

/-- The files of the release, by induction on those still to come. -/
theorem safe_uploadOutputs
    (hverified : verifyReleaseDir setup.sha setup.manifest (setup.pathOf t) (setup.dirOf t)
      (expect t).modelId (expect t).dim = .ok manifest)
    {names : List String} (hnames : ∀ name ∈ names, name ∈ manifest.outputs.map (·.name)) :
    (bucketContract setup expect objects).Safe t (uploadOutputs setup t manifest names).run
      (AfterOk fun b' => ∀ name ∈ names, HoldsOutput setup manifest b' name) b := by
  induction names generalizing b with
  | nil => exact pureExcept fun _ _ _ => nofun
  | cons name rest ih =>
      refine bindExcept ((safe_uploadOutput hverified (hnames name List.mem_cons_self)).mono
        fun r b₁ _ hheld => ?_)
      cases r with
      | error e => trivial
      | ok u =>
          refine (carry (P := fun b => HoldsOutput setup manifest b name)
            (fun hgrows h => h.grows hgrows) hheld (ih fun other hother => hnames other (List.mem_cons_of_mem name hother))).mono ?_
          rintro r b₂ _ ⟨hfirst, hrest⟩
          cases r with
          | error e => trivial
          | ok u => exact List.forall_mem_cons.mpr ⟨hfirst, hrest⟩

/-- The stored manifest is the local one when the comparison succeeds. -/
theorem safe_checkStoredManifest {localManifest : Bytes} :
    (bucketContract setup expect objects).Safe t
      (checkStoredManifest manifest (staticReleaseManifestKey manifest.releaseId) localManifest).run
      (AfterOk fun b' => b'.objects (staticReleaseManifestKey manifest.releaseId) =
        some localManifest) b := by
  unfold checkStoredManifest
  refine bindExcept ((safe_readBack (releaseFileKey_ne_head _ _)).mono fun r b₁ _ hr => ?_)
  cases r with
  | error e => trivial
  | ok stored =>
      refine bindCheck (fun object hobject b₂ hrely _ => ?_) fun _ _ _ _ _ => trivial
      refine checkExcept (fun u hcheck b₃ hrely' _ => ?_) fun _ _ _ _ _ => trivial
      have hlies := hr object (okOr_eq_ok.mp hobject)
      rw [rejectIf_eq_ok, not_not] at hcheck
      rw [hcheck] at hlies
      exact (hrely.1.trans hrely'.1) _ (releaseFileKey_ne_head _ _) _ hlies

/-- The manifest: it was stored, or the stored one is the same. -/
theorem safe_uploadManifest
    (hverified : verifyReleaseDir setup.sha setup.manifest (setup.pathOf t) (setup.dirOf t)
      (expect t).modelId (expect t).dim = .ok manifest) :
    (bucketContract setup expect objects).Safe t (uploadManifest setup t manifest).run
      (AfterOk (HoldsManifest setup t manifest)) b := by
  obtain ⟨bytes, hfile, hparse⟩ := (verifyReleaseDir_eq_ok.mp hverified).1.parsed
  have hholds : ∀ {b b' : Bucket}, b.objects (staticReleaseManifestKey manifest.releaseId) =
      some bytes → b.Grows b' → HoldsManifest setup t manifest b' := fun hlies hgrows =>
    HoldsManifest.grows ⟨bytes, hfile, hparse, hlies⟩ hgrows
  unfold uploadManifest
  refine bindExcept (mapErrorExcept (x := ExceptT.mk (bucketCall (.readLocal releaseManifestFile)))
    (safe_look (fun _ _ => rfl) fun b₁ c b₂ _ => ?_))
  cases hread : (Bucket.perform setup t (.readLocal releaseManifestFile) c b₁).1 with
  | error error => trivial
  | ok localManifest =>
      obtain rfl : localManifest = bytes := by
        simp only [Bucket.perform] at hread
        split at hread
        · cases hread
        · exact Option.some.inj ((okOr_eq_ok.mp hread).symm.trans hfile)
      refine bindExcept (liftExcept ((safe_bucketUploadFile (releaseFileKey_ne_head _ _)
        fun bytes hfile => ⟨t, manifest, _, hverified, .inr rfl, rfl, hfile⟩).mono
        fun r b₃ _ hstored => ?_))
      cases r with
      | ok u =>
          obtain ⟨bytes', hfile', hlies⟩ := hstored
          obtain rfl : bytes' = localManifest := Option.some.inj (hfile'.symm.trans hfile)
          exact pureExcept fun b₄ hrely _ => hholds hlies hrely.1
      | error error =>
          show (bucketContract setup expect objects).Safe t
            (ExceptT.run (if isCreateOnlyConflict error then _ else _)) _ _
          split
          · refine (safe_checkStoredManifest).mono fun r b₄ _ hlies => ?_
            cases r with
            | error e => trivial
            | ok u => exact hholds hlies (Bucket.Grows.refl b₄)
          · exact throwExcept fun _ _ _ => trivial

theorem safe_uploadRelease
    (hverified : verifyReleaseDir setup.sha setup.manifest (setup.pathOf t) (setup.dirOf t)
      (expect t).modelId (expect t).dim = .ok manifest) :
    (bucketContract setup expect objects).Safe t (uploadRelease setup t manifest).run
      (AfterOk (CompleteRelease setup t manifest)) b := by
  unfold uploadRelease
  refine bindCheck (fun names hnames b₁ _ _ => ?_) fun _ _ _ _ _ => trivial
  have hfiles := okOr_eq_ok.mp hnames
  obtain rfl : names = manifest.outputs.map (·.name) :=
    Option.some.inj (hfiles.symm.trans (verifyReleaseDir_eq_ok.mp hverified).1.names)
  refine bindExcept ((safe_uploadOutputs hverified fun name hname => hname).mono
    fun r b₂ _ hheld => ?_)
  cases r with
  | error e => trivial
  | ok u =>
      refine (carry (fun hgrows h name hname => HoldsOutput.grows (h name hname) hgrows) hheld
        (safe_uploadManifest hverified)).mono ?_
      rintro r b₃ _ ⟨houtputs, hmanifest⟩
      cases r with
      | error e => trivial
      | ok u => exact ⟨⟨_, hfiles, houtputs⟩, hmanifest⟩

/-- A run that has its release in the bucket sets the pointer to it, or leaves it alone. -/
theorem safe_activateStaticPointer {updatedAt : Int}
    (hverified : verifyReleaseDir setup.sha setup.manifest (setup.pathOf t) (setup.dirOf t)
      (expect t).modelId (expect t).dim = .ok manifest)
    (hcomplete : CompleteRelease setup t manifest b) :
    (bucketContract setup expect objects).Safe t (activateStaticPointer setup.head readBucketHead
      swapBucketHead manifest.releaseId updatedAt).run (fun _ _ => True) b := by
  unfold activateStaticPointer
  refine Contract.Safe.mono (Q := AfterOk fun _ => True) ?_ fun _ _ _ _ => trivial
  refine bindExcept (mapErrorExcept (x := ExceptT.mk (bucketCall (.get staticHeadKey)))
    (Contract.Safe.mono (carry (P := CompleteRelease setup t manifest)
      (fun hgrows h => h.grows hgrows) hcomplete
      (safe_look (Q := fun _ _ => True) (fun _ _ => rfl) fun _ _ _ _ => trivial)) ?_))
  rintro r b₁ _ ⟨hcomplete₁, _⟩
  cases r with
  | error e => trivial
  | ok current =>
      refine bindCheck (fun previous _ b₂ hrely₂ _ => ?_) fun _ _ _ _ _ => trivial
      refine bindCheck (fun headBytes hbytes b₃ hrely₃ _ => ?_) fun _ _ _ _ _ => trivial
      have hcomplete₃ := (hcomplete₁.grows hrely₂.1).grows hrely₃.1
      obtain ⟨hvalid, rfl⟩ := newHeadBytes_eq_ok.mp hbytes
      refine bindExcept (mapErrorExcept (x := ExceptT.mk (bucketCall (.swapHead _ _)))
        (Contract.Safe.ask (P := CompleteRelease setup t manifest)
          (fun b b' hrely _ h => h.grows hrely.1) hcomplete₃ fun b₄ c hinv hcomplete₄ _ => ?_))
      refine ⟨keeps_swapHeadAt hinv hverified hvalid hcomplete₄, fun b₅ _ _ => ?_⟩
      cases ((Bucket.machine setup).apply t (.swapHead _ _) c b₄).1 with
      | error e => trivial
      | ok swapped =>
          show (bucketContract setup expect objects).Safe t (ExceptT.run (if swapped then _ else _)) _ _
          split
          · exact pureExcept fun _ _ _ => trivial
          · exact throwExcept fun _ _ _ => trivial

/-- The whole run. -/
theorem safe_staticActivate :
    (bucketContract setup expect objects).Safe t
      (staticActivate setup (expect t).modelId (expect t).dim t).run (fun _ _ => True) b := by
  unfold staticActivate
  refine Contract.Safe.mono (Q := AfterOk fun _ => True) ?_ fun _ _ _ _ => trivial
  refine bindCheck (fun manifest hlocal b₁ _ _ => ?_) fun _ _ _ _ _ => trivial
  have hverified := verifyLocal_eq_ok.mp hlocal
  refine bindExcept ((safe_uploadRelease hverified).mono
    fun r b₂ _ hcomplete => ?_)
  cases r with
  | error e => trivial
  | ok u =>
      refine bindExcept (liftExcept (Contract.Safe.mono (carry
        (P := CompleteRelease setup t manifest) (fun hgrows h => h.grows hgrows) hcomplete
        (safe_look (Q := fun _ _ => True) (fun _ _ => rfl) fun _ _ _ _ => trivial)) ?_))
      rintro updatedAt b₃ _ ⟨hcomplete₃, _⟩
      refine mapErrorExcept ((safe_activateStaticPointer hverified hcomplete₃).mono ?_)
      intro r _ _ _
      cases r <;> trivial

end RemoteActivation

/-! ## Every run -/

/-- Any number of runs before their first operation, over a bucket with these objects. -/
def staticActivations (setup : BucketSetup) (expect : Nat → Expectations)
    (objects : String → Option Bytes) :
    Config bucketSignature Bucket Nat (Except String StaticActivationResult) where
  world := { objects, headWriter := none }
  threads t := (staticActivate setup (expect t).modelId (expect t).dim t).run

/-- The invariant after any turns. -/
theorem bucketInv_run (setup : BucketSetup) (expect : Nat → Expectations)
    (objects : String → Option Bytes) (turns : List (Nat × BucketChoice)) :
    BucketInv setup expect objects
      (run (Bucket.machine setup).step (staticActivations setup expect objects) turns).world := by
  have hstart : (bucketContract setup expect objects).inv
      (staticActivations setup expect objects).world := ⟨rfl, fun _ _ _ h => .inl h⟩
  have hallowed := Contract.allowed_of_forall (K := bucketContract setup expect objects)
    (fun _ _ _ _ => trivial) (staticActivations setup expect objects) turns
  exact (Contract.run_safe (Q := fun _ _ _ => True) hstart
    (fun _ => RemoteActivation.safe_staticActivate) turns hallowed).1

/-- Whatever lies in the bucket at the start, and however any number of runs take turns, fail and
stop: the pointer is the one found at the start, or one that a run has set over its whole release. -/
theorem pointerSafe_run (setup : BucketSetup) (expect : Nat → Expectations)
    (objects : String → Option Bytes) (turns : List (Nat × BucketChoice)) :
    PointerSafe setup expect (objects staticHeadKey)
      (run (Bucket.machine setup).step (staticActivations setup expect objects) turns).world :=
  (bucketInv_run setup expect objects turns).pointer

end LTSearch
