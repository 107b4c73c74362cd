/-
# LTSearch.Indexing.ResumedActivation -- a later run on a bucket that earlier runs have worked on

What lies under the id of a verified release was brought by runs over verified directories of the same
id, so a later run that nothing disturbs finds every output file to be its own.  The manifest is
compared byte by byte, and the source of a release is in the manifest but not in the id: a directory
that was rebuilt from another dataset path or table version has the same id and another manifest, and
the later run over it is refused.
-/
import LTSearch.Indexing.ReleaseIdentity
import LTSearch.Indexing.RemoteActivation
import LTSearch.Indexing.VerifyBuilt

namespace LTSearch

open LTSearch.Foundation
open TurboQuantConfig (okOr okOr_eq_ok)

/-! ## A run that nothing disturbs -/

section Alone

variable {setup : BucketSetup} {t : Nat} {clock : Int} {manifest : ReleaseManifest} {b : Bucket}

/-- Every output file of the release that lies in the bucket is as the manifest describes it. -/
def OutputsOurs (setup : BucketSetup) (manifest : ReleaseManifest) (b : Bucket) : Prop :=
  ∀ name ∈ manifest.outputs.map (·.name), ∀ bytes,
    b.objects (releaseFileKey manifest.releaseId name) = some bytes →
      OutputFile.describe setup.sha name bytes ∈ manifest.outputs

/-- What a program comes to when nothing disturbs it. -/
abbrev quietly (setup : BucketSetup) (t : Nat) (clock : Int) {α : Type} (p : BucketM α) (b : Bucket) :
    α × Bucket :=
  (Bucket.machine setup).alone t (BucketChoice.undisturbed clock) p b

theorem conflict_isCreateOnly (key : String) : isCreateOnlyConflict (.operation
    (createOnlyConflictPhrase ++ " " ++ key ++ ": version artifacts are immutable")) = true := by
  refine decide_eq_true ?_
  refine ⟨[], (" " ++ key ++ ": version artifacts are immutable").toList, ?_⟩
  rw [List.nil_append, ← String.toList_append]
  simp only [String.append_assoc]

theorem quietly_call {α : Type} {op : BucketOp} {f : op.Ans → BucketM α} {r : op.Ans} {b' : Bucket}
    (h : Bucket.perform setup t op (BucketChoice.undisturbed clock) b = (r, b')) :
    quietly setup t clock (bucketCall op >>= f) b = quietly setup t clock (f r) b' := by
  refine (Machine.alone_bind (bucketCall op) f).trans ?_
  show quietly setup t clock (f (Bucket.perform setup t op _ b).1) (Bucket.perform setup t op _ b).2 = _
  rw [h]

theorem perform_readLocal (clock : Int) (b : Bucket) {name : String} {bytes : Bytes}
    (hfile : setup.dirOf t name = some bytes) :
    Bucket.perform setup t (.readLocal name) (BucketChoice.undisturbed clock) b = (.ok bytes, b) := by
  simp only [Bucket.perform, BucketChoice.undisturbed, hfile]
  rfl

theorem perform_get (setup : BucketSetup) (t : Nat) (clock : Int) (b : Bucket) (key : String) :
    Bucket.perform setup t (.get key) (BucketChoice.undisturbed clock) b =
      (.ok ((b.objects key).map fun bytes => { bytes, etag := setup.etag bytes }), b) := rfl

theorem perform_put_absent {key : String} {bytes : Bytes} (h : b.objects key = none) :
    Bucket.perform setup t (.put key bytes) (BucketChoice.undisturbed clock) b =
      (.stored, b.store key bytes) := by
  simp only [Bucket.perform, Bucket.putAt, BucketChoice.undisturbed, h]
  rfl

theorem perform_put_present {key : String} {bytes stored : Bytes} (h : b.objects key = some stored) :
    Bucket.perform setup t (.put key bytes) (BucketChoice.undisturbed clock) b =
      (.preconditionFailed, b) := by
  simp only [Bucket.perform, Bucket.putAt, BucketChoice.undisturbed, h]
  rfl

theorem quietly_upload_absent {path key name : String} {bytes : Bytes}
    (hfile : setup.dirOf t name = some bytes) (habsent : b.objects key = none) :
    quietly setup t clock (bucketUploadFile path key name) b = (.ok (), b.store key bytes) :=
  (quietly_call (perform_readLocal clock b hfile)).trans (quietly_call (perform_put_absent habsent))

theorem quietly_upload_present {path key name : String} {bytes stored : Bytes}
    (hfile : setup.dirOf t name = some bytes) (hstored : b.objects key = some stored) :
    quietly setup t clock (bucketUploadFile path key name) b = (.error (.operation
      (createOnlyConflictPhrase ++ " " ++ key ++ ": version artifacts are immutable")), b) :=
  (quietly_call (perform_readLocal clock b hfile)).trans (quietly_call (perform_put_present hstored))

/-- What is read back from an object. -/
theorem quietly_readBack {ε : Type} {f : PublishError → ε} {key : String} :
    quietly setup t clock (Except.mapError f <$> bucketCall (.get key)) b =
      (.ok ((b.objects key).map fun bytes => { bytes, etag := setup.etag bytes }), b) :=
  Machine.alone_mapError (p := ExceptT.mk (bucketCall (.get key)))
    (perform_get setup t clock b key)

/-- What is read of the directory. -/
theorem quietly_readLocal {ε : Type} {f : String → ε} {name : String} {bytes : Bytes}
    (hfile : setup.dirOf t name = some bytes) :
    quietly setup t clock (Except.mapError f <$> bucketCall (.readLocal name)) b = (.ok bytes, b) :=
  Machine.alone_mapError (p := ExceptT.mk (bucketCall (.readLocal name)))
    (perform_readLocal clock b hfile)

/-- A check that passes. -/
theorem quietly_check {ε α β : Type} {x : Except ε α} {f : α → ExceptT ε BucketM β} {a : α}
    (h : x = .ok a) :
    quietly setup t clock ((liftM x : ExceptT ε BucketM α) >>= f).run b =
      quietly setup t clock (f a).run b :=
  Machine.alone_check h

theorem quietly_lift {ε α β : Type} {x : BucketM α} {f : α → ExceptT ε BucketM β} {a : α} {b' : Bucket}
    (h : quietly setup t clock x b = (a, b')) :
    quietly setup t clock ((liftM x : ExceptT ε BucketM α) >>= f).run b =
      quietly setup t clock (f a).run b' :=
  Machine.alone_bind_ok (Machine.alone_lift h)

/-- An object that the manifest describes passes the check. -/
theorem quietly_verifyRemoteObject (hverified : Verified setup.sha setup.manifest (setup.dirOf t) manifest)
    {name : String} {stored : Bytes} (hname : name ∈ manifest.outputs.map (·.name))
    (hstored : b.objects (releaseFileKey manifest.releaseId name) = some stored)
    (hours : OutputFile.describe setup.sha name stored ∈ manifest.outputs) :
    quietly setup t clock (verifyRemoteObject setup.sha (releaseFileKey manifest.releaseId name) name
      manifest).run b = (.ok (), b) := by
  obtain ⟨expected, hfind⟩ : ∃ expected,
      (manifest.outputs.find? fun output => output.name = name) = some expected := by
    obtain ⟨output, houtput, houtname⟩ := List.mem_map.mp hname
    refine Option.isSome_iff_exists.mp (List.find?_isSome.mpr ⟨output, houtput, ?_⟩)
    exact decide_eq_true houtname
  have hexpected : expected = .describe setup.sha name stored := by
    have hmem := List.mem_of_find?_eq_some hfind
    have hexpname : expected.name = name := by simpa using List.find?_some hfind
    exact hverified.output_unique hmem hours hexpname
  unfold verifyRemoteObject
  refine (quietly_check (okOr_eq_ok.mpr hfind)).trans ?_
  refine (Machine.alone_bind_ok quietly_readBack).trans ?_
  rw [hstored]
  refine (quietly_check (okOr_eq_ok.mpr rfl)).trans ?_
  subst hexpected
  have hcheck : checkRemoteObject setup.sha (releaseFileKey manifest.releaseId name)
      (.describe setup.sha name stored) stored = .ok () :=
    bind_eq_ok.mpr ⟨(), rejectIf_eq_ok.mpr (not_not.mpr rfl), rejectIf_eq_ok.mpr (not_not.mpr rfl)⟩
  rw [hcheck]
  rfl

/-- One file of the release, over a bucket in which nothing of it is foreign. -/
theorem quietly_uploadOutput (clock : Int)
    (hverified : Verified setup.sha setup.manifest (setup.dirOf t) manifest)
    {name : String} (hname : name ∈ manifest.outputs.map (·.name))
    (hours : OutputsOurs setup manifest b) :
    ∃ b', quietly setup t clock (uploadOutput setup t manifest name).run b = (.ok (), b') ∧
      OutputsOurs setup manifest b' ∧
      ∀ key, key ≠ releaseFileKey manifest.releaseId name → b'.objects key = b.objects key := by
  obtain ⟨output, houtput, rfl⟩ := List.mem_map.mp hname
  obtain ⟨bytes, hfile, hdescribed⟩ := hverified.outputs output houtput
  unfold uploadOutput
  cases hobject : b.objects (releaseFileKey manifest.releaseId output.name) with
  | none =>
      refine ⟨b.store (releaseFileKey manifest.releaseId output.name) bytes,
        quietly_lift (quietly_upload_absent hfile hobject), fun other hother stored hstored => ?_,
        fun key hne => Bucket.objects_store_of_ne b bytes hne⟩
      by_cases hkey : other = output.name
      · subst hkey
        obtain rfl := Option.some.inj ((Bucket.objects_store_self _ _ _).symm.trans hstored)
        exact hdescribed ▸ houtput
      · have hne : releaseFileKey manifest.releaseId other ≠
            releaseFileKey manifest.releaseId output.name := fun h => hkey (releaseFileKey_inj h)
        rw [Bucket.objects_store_of_ne b bytes hne] at hstored
        exact hours other hother stored hstored
  | some stored =>
      refine ⟨b, (quietly_lift (quietly_upload_present hfile hobject)).trans ?_, hours, fun _ _ => rfl⟩
      show quietly setup t clock (ExceptT.run (if isCreateOnlyConflict _ then _ else _)) b = _
      rw [if_pos (conflict_isCreateOnly _)]
      exact quietly_verifyRemoteObject hverified hname hobject (hours _ hname stored hobject)

/-- The files of the release, by induction on those still to come. -/
theorem quietly_uploadOutputs (clock : Int)
    (hverified : Verified setup.sha setup.manifest (setup.dirOf t) manifest)
    {names : List String} (hnames : ∀ name ∈ names, name ∈ manifest.outputs.map (·.name))
    (hours : OutputsOurs setup manifest b) :
    ∃ b', quietly setup t clock (uploadOutputs setup t manifest names).run b = (.ok (), b') ∧
      ∀ key, (∀ name ∈ names, key ≠ releaseFileKey manifest.releaseId name) →
        b'.objects key = b.objects key := by
  induction names generalizing b with
  | nil => exact ⟨b, rfl, fun _ _ => rfl⟩
  | cons name rest ih =>
      obtain ⟨hname, hrest⟩ := List.forall_mem_cons.mp hnames
      obtain ⟨b₁, hfirst, hours₁, hsame₁⟩ :=
        quietly_uploadOutput clock hverified hname hours
      obtain ⟨b₂, hothers, hsame₂⟩ := ih hrest hours₁
      refine ⟨b₂, (Machine.alone_bind_ok hfirst).trans hothers, fun key hkey => ?_⟩
      obtain ⟨hne, hkey⟩ := List.forall_mem_cons.mp hkey
      exact (hsame₂ key hkey).trans (hsame₁ key hne)

/-- The manifest, where nothing or the same is stored. -/
theorem quietly_uploadManifest (clock : Int) {bytes : Bytes}
    (hfile : setup.dirOf t releaseManifestFile = some bytes)
    (hsame : ∀ stored, b.objects (staticReleaseManifestKey manifest.releaseId) = some stored →
      stored = bytes) :
    ∃ b', quietly setup t clock (uploadManifest setup t manifest).run b = (.ok (), b') ∧
      b'.objects (staticReleaseManifestKey manifest.releaseId) = some bytes ∧
      b'.objects staticHeadKey = b.objects staticHeadKey := by
  unfold uploadManifest
  cases hobject : b.objects (staticReleaseManifestKey manifest.releaseId) with
  | none =>
      refine ⟨b.store (staticReleaseManifestKey manifest.releaseId) bytes,
        (Machine.alone_bind_ok (quietly_readLocal hfile)).trans (quietly_lift (quietly_upload_absent hfile hobject)),
        Bucket.objects_store_self _ _ _, ?_⟩
      exact Bucket.objects_store_of_ne b bytes (releaseFileKey_ne_head _ _).symm
  | some stored =>
      obtain rfl := hsame stored hobject
      refine ⟨b, (Machine.alone_bind_ok (quietly_readLocal hfile)).trans
        ((quietly_lift (quietly_upload_present hfile hobject)).trans ?_), hobject, rfl⟩
      show quietly setup t clock (ExceptT.run (if isCreateOnlyConflict _ then _ else _)) b = _
      rw [if_pos (conflict_isCreateOnly _)]
      refine (Machine.alone_bind_ok quietly_readBack).trans ?_
      rw [hobject]
      refine (quietly_check (okOr_eq_ok.mpr rfl)).trans ?_
      rw [rejectIf_eq_ok.mpr (not_not.mpr rfl)]
      rfl

/-- Another manifest under the same id stops the run. -/
theorem quietly_uploadManifest_conflict (clock : Int) {bytes stored : Bytes}
    (hfile : setup.dirOf t releaseManifestFile = some bytes)
    (hobject : b.objects (staticReleaseManifestKey manifest.releaseId) = some stored)
    (hne : stored ≠ bytes) :
    ∃ e, quietly setup t clock (uploadManifest setup t manifest).run b = (.error e, b) := by
  unfold uploadManifest
  refine ⟨s!"static release {manifest.releaseId} already installed with a DIFFERENT manifest at {staticReleaseManifestKey manifest.releaseId}: content-addressed ids make this impossible; treating as corruption",
    (Machine.alone_bind_ok (quietly_readLocal hfile)).trans
      ((quietly_lift (quietly_upload_present hfile hobject)).trans ?_)⟩
  show quietly setup t clock (ExceptT.run (if isCreateOnlyConflict _ then _ else _)) b = _
  rw [if_pos (conflict_isCreateOnly _)]
  refine (Machine.alone_bind_ok quietly_readBack).trans ?_
  rw [hobject]
  refine (quietly_check (okOr_eq_ok.mpr rfl)).trans ?_
  rw [rejectIf, if_pos hne]
  rfl

/-- The pointer, where the one that stands can be read. -/
theorem quietly_activateStaticPointer {previous : Option String}
    (hid : isReleaseId manifest.releaseId = true) (hclock : minPlausibleEpochMillis ≤ clock)
    (hprevious : previousRelease setup.head ((b.objects staticHeadKey).map fun bytes =>
      { bytes, etag := setup.etag bytes }) = .ok previous) :
    quietly setup t clock (activateStaticPointer setup.head readBucketHead swapBucketHead
        manifest.releaseId clock).run b =
      (.ok { releaseId := manifest.releaseId, previousReleaseId := previous },
        b.setHead t (setup.head.toJsonPretty (StaticReleaseHead.new manifest.releaseId clock))) := by
  unfold activateStaticPointer
  refine (Machine.alone_bind_ok quietly_readBack).trans ?_
  refine (quietly_check hprevious).trans ?_
  refine (quietly_check (newHeadBytes_eq_ok.mpr
    ⟨StaticReleaseHead.validate_new.mpr ⟨hid, hclock⟩, rfl⟩)).trans ?_
  have hswap : quietly setup t clock (Except.mapError StaticActivateError.storage <$>
      swapBucketHead (((b.objects staticHeadKey).map fun bytes =>
        { bytes, etag := setup.etag bytes : StoredObject }).map (·.etag))
        (setup.head.toJsonPretty (StaticReleaseHead.new manifest.releaseId clock))) b =
      (.ok true,
        b.setHead t (setup.head.toJsonPretty (StaticReleaseHead.new manifest.releaseId clock))) := by
    refine Machine.alone_mapError (p := ExceptT.mk (bucketCall (.swapHead _ _))) ?_
    show Bucket.swapHeadAt _ _ _ _ _ _ = _
    have hetag : (b.objects staticHeadKey).map setup.etag =
        ((b.objects staticHeadKey).map fun bytes =>
          { bytes, etag := setup.etag bytes : StoredObject }).map (·.etag) := by
      rw [Option.map_map]
      rfl
    rw [Bucket.swapHeadAt, if_neg (by simp [BucketChoice.undisturbed, hetag]), if_neg (by
      simp [BucketChoice.undisturbed])]
  exact Machine.alone_bind_ok hswap

/-- The manifest lies beside the output files. -/
theorem Verified.manifestKey_ne (hverified : Verified setup.sha setup.manifest (setup.dirOf t) manifest) :
    ∀ name ∈ manifest.outputs.map (·.name),
      staticReleaseManifestKey manifest.releaseId ≠ releaseFileKey manifest.releaseId name := by
  intro name hname heq
  rw [← releaseFileKey_inj heq] at hname
  exact (releaseOutputFiles_facts hverified.names).2.2.1 hname

/-- Where nothing of the release is foreign, and no other manifest, the run succeeds. -/
theorem quietly_staticActivate {expect : Expectations} {bytes : Bytes} {previous : Option String}
    (haccepted : verifyReleaseDir setup.sha setup.manifest (setup.pathOf t) (setup.dirOf t)
      expect.modelId expect.dim = .ok manifest)
    (hfile : setup.dirOf t releaseManifestFile = some bytes) (hours : OutputsOurs setup manifest b)
    (hsame : ∀ stored, b.objects (staticReleaseManifestKey manifest.releaseId) = some stored →
      stored = bytes)
    (hclock : minPlausibleEpochMillis ≤ clock)
    (hprevious : previousRelease setup.head ((b.objects staticHeadKey).map fun bytes =>
      { bytes, etag := setup.etag bytes }) = .ok previous) :
    ∃ b', quietly setup t clock (staticActivate setup expect.modelId expect.dim t).run b =
        (.ok { releaseId := manifest.releaseId, previousReleaseId := previous }, b') ∧
      b'.objects staticHeadKey =
        some (setup.head.toJsonPretty (StaticReleaseHead.new manifest.releaseId clock)) ∧
      b'.objects (staticReleaseManifestKey manifest.releaseId) = some bytes := by
  have hverified := (verifyReleaseDir_eq_ok.mp haccepted).1
  obtain ⟨b₁, houtputs, hsame₁⟩ := quietly_uploadOutputs clock hverified
    (fun _ h => h) hours
  have hnotOutput := hverified.manifestKey_ne
  have hmanifest₁ := hsame₁ _ hnotOutput
  have hhead₁ := hsame₁ staticHeadKey fun name _ => (releaseFileKey_ne_head _ name).symm
  rw [← hmanifest₁] at hsame
  obtain ⟨b₂, hmanifest, hstored, hhead₂⟩ := quietly_uploadManifest clock hfile hsame
  have hid : isReleaseId manifest.releaseId = true := by
    rw [← hverified.releaseId]
    exact isReleaseId_sha256Hex _ _
  rw [← hhead₁, ← hhead₂] at hprevious
  have hactivate := quietly_activateStaticPointer (t := t) hid hclock hprevious
  refine ⟨_, ?_, Bucket.objects_setHead b₂ t _, ?_⟩
  · have hupload : quietly setup t clock (uploadRelease setup t manifest).run b = (.ok (), b₂) :=
      (quietly_check (okOr_eq_ok.mpr hverified.names)).trans
        ((Machine.alone_bind_ok houtputs).trans hmanifest)
    have hclockRead : quietly setup t clock (bucketCall .currentTimeMillis) b₂ = (clock, b₂) := rfl
    refine (quietly_check (verifyLocal_eq_ok.mpr haccepted)).trans ?_
    refine (Machine.alone_bind_ok hupload).trans ((quietly_lift hclockRead).trans ?_)
    exact Machine.alone_mapError hactivate
  · exact Bucket.grows_setHead b₂ t _ _ (releaseFileKey_ne_head _ _) _ hstored

/-- Where another manifest lies under the id of the release, the run fails. -/
theorem quietly_staticActivate_conflict {expect : Expectations} {bytes stored : Bytes}
    (haccepted : verifyReleaseDir setup.sha setup.manifest (setup.pathOf t) (setup.dirOf t)
      expect.modelId expect.dim = .ok manifest)
    (hfile : setup.dirOf t releaseManifestFile = some bytes) (hours : OutputsOurs setup manifest b)
    (hobject : b.objects (staticReleaseManifestKey manifest.releaseId) = some stored)
    (hne : stored ≠ bytes) :
    ∃ e b', quietly setup t clock (staticActivate setup expect.modelId expect.dim t).run b =
      (.error e, b') := by
  have hverified := (verifyReleaseDir_eq_ok.mp haccepted).1
  obtain ⟨b₁, houtputs, hsame₁⟩ := quietly_uploadOutputs clock hverified
    (fun _ h => h) hours
  have hnotOutput := hverified.manifestKey_ne
  rw [← hsame₁ _ hnotOutput] at hobject
  obtain ⟨e, hconflict⟩ := quietly_uploadManifest_conflict clock hfile hobject hne
  refine ⟨e, b₁, (quietly_check (verifyLocal_eq_ok.mpr haccepted)).trans ?_⟩
  refine Machine.alone_bind_error ?_
  refine (quietly_check (okOr_eq_ok.mpr hverified.names)).trans ?_
  exact (Machine.alone_bind_ok houtputs).trans hconflict

end Alone

/-! ## The buckets that runs leave behind -/

section Reached

variable {setup : BucketSetup} {expect : Nat → Expectations} {objects : String → Option Bytes}
  {t : Nat} {manifest : ReleaseManifest} {b : Bucket}

/-- Run `t` is over a directory that verification accepts, with this manifest. -/
abbrev Accepts (setup : BucketSetup) (expect : Nat → Expectations) (t : Nat)
    (manifest : ReleaseManifest) : Prop :=
  verifyReleaseDir setup.sha setup.manifest (setup.pathOf t) (setup.dirOf t) (expect t).modelId
    (expect t).dim = .ok manifest

/-- A bucket before its first static release: a pointer that stands in it can be read. -/
structure FreshBucket (codec : StaticHeadCodec) (objects : String → Option Bytes) : Prop where
  releases : ∀ releaseId name, objects (releaseFileKey releaseId name) = none
  pointer : ∀ bytes, objects staticHeadKey = some bytes →
    ∃ head, StaticReleaseHead.fromJson codec bytes = .ok head

/-- SHA-256 does not collide on what the runs' release ids are taken of. -/
def IdsApart (setup : BucketSetup) (expect : Nat → Expectations) : Prop :=
  ∀ t t' manifest manifest', Accepts setup expect t manifest → Accepts setup expect t' manifest' →
    setup.sha.digest manifest.idBytes = setup.sha.digest manifest'.idBytes →
    manifest.idBytes = manifest'.idBytes

/-- The pointers that the runs write parse back. -/
def HeadsRoundTrip (setup : BucketSetup) (expect : Nat → Expectations) : Prop :=
  ∀ t manifest updatedAt, Accepts setup expect t manifest →
    setup.head.fromSlice
        (setup.head.toJsonPretty (StaticReleaseHead.new manifest.releaseId updatedAt)) =
      .ok (StaticReleaseHead.new manifest.releaseId updatedAt)

theorem Accepts.length_releaseId (h : Accepts setup expect t manifest) :
    manifest.releaseId.toList.length = 64 := by
  rw [← (verifyReleaseDir_eq_ok.mp h).1.releaseId]
  show (hexEncode (setup.sha.digest _)).toList.length = 64
  rw [length_hexEncode, setup.sha.length_digest]

/-- Under the id of a verified release lies nothing foreign: what a run brought there is of a verified
release of the same id, which describes the same outputs. -/
theorem outputsOurs_of_inv (hinv : BucketInv setup expect objects b)
    (hfresh : FreshBucket setup.head objects) (happart : IdsApart setup expect)
    (haccepted : Accepts setup expect t manifest) : OutputsOurs setup manifest b := by
  intro name hname bytes hstored
  have hverified := (verifyReleaseDir_eq_ok.mp haccepted).1
  obtain hfound | ⟨t', manifest', name', haccepted', hname', hkey, hfile⟩ :=
    hinv.origin _ bytes (releaseFileKey_ne_head _ _) hstored
  · rw [hfresh.releases] at hfound
    cases hfound
  · have hverified' := (verifyReleaseDir_eq_ok.mp haccepted').1
    obtain ⟨hid, rfl⟩ := releaseFileKey_inj_of_length
      ((Accepts.length_releaseId haccepted).trans (Accepts.length_releaseId haccepted').symm) hkey
    have hbytes : manifest.idBytes = manifest'.idBytes := by
      refine happart t t' manifest manifest' haccepted haccepted' (hexEncode_inj ?_)
      exact (hverified.releaseId.trans hid).trans hverified'.releaseId.symm
    rw [outputs_eq_of_idBytes_eq hverified hverified' hbytes] at hname ⊢
    obtain ⟨output, houtput, rfl⟩ := List.mem_map.mp hname
    obtain ⟨bytes', hfile', hdescribed⟩ := hverified'.outputs output houtput
    obtain rfl := Option.some.inj (hfile.symm.trans hfile')
    exact hdescribed ▸ houtput

/-- The pointer can be read. -/
theorem previousRelease_of_inv (hinv : BucketInv setup expect objects b)
    (hfresh : FreshBucket setup.head objects) (hround : HeadsRoundTrip setup expect) :
    ∃ previous, previousRelease setup.head ((b.objects staticHeadKey).map fun bytes =>
      { bytes, etag := setup.etag bytes }) = .ok previous := by
  have hread : ∀ bytes, b.objects staticHeadKey = some bytes →
      ∃ head, StaticReleaseHead.fromJson setup.head bytes = .ok head := by
    intro bytes hbytes
    have hpointer := hinv.pointer
    unfold PointerSafe at hpointer
    split at hpointer
    · exact hfresh.pointer bytes (hpointer.symm.trans hbytes)
    · obtain ⟨manifest', updatedAt, haccepted', hvalid, hhead, -⟩ := hpointer
      obtain rfl := Option.some.inj (hhead.symm.trans hbytes)
      exact ⟨_, StaticReleaseHead.fromJson_eq_ok.mpr ⟨hround _ _ _ haccepted', hvalid⟩⟩
  cases hobject : b.objects staticHeadKey with
  | none => exact ⟨none, rfl⟩
  | some bytes =>
      obtain ⟨head, hhead⟩ := hread bytes hobject
      refine ⟨some head.releaseId, bind_eq_ok.mpr ⟨head, mapError_eq_ok.mpr hhead, rfl⟩⟩

/-- A run that nothing disturbs, over a bucket that any runs over verified directories have left
behind, succeeds exactly when no other manifest lies under the id of its release. -/
theorem staticActivate_resumes (hfresh : FreshBucket setup.head objects)
    (hround : HeadsRoundTrip setup expect) (happart : IdsApart setup expect)
    (turns : List (Nat × BucketChoice)) (hlater : ∀ turn ∈ turns, turn.1 ≠ t)
    (haccepted : Accepts setup expect t manifest) {clock : Int}
    (hclock : minPlausibleEpochMillis ≤ clock) :
    (∃ previous n,
      (run (Bucket.machine setup).step (staticActivations setup expect objects)
          (turns ++ List.replicate n (t, BucketChoice.undisturbed clock))).threads t =
        .done (.ok { releaseId := manifest.releaseId, previousReleaseId := previous }) ∧
      (run (Bucket.machine setup).step (staticActivations setup expect objects)
          (turns ++ List.replicate n (t, BucketChoice.undisturbed clock))).world.objects
          staticHeadKey =
        some (setup.head.toJsonPretty (StaticReleaseHead.new manifest.releaseId clock))) ↔
    ∀ stored,
      (run (Bucket.machine setup).step (staticActivations setup expect objects) turns).world.objects
          (staticReleaseManifestKey manifest.releaseId) = some stored →
        setup.dirOf t releaseManifestFile = some stored := by
  have hinv := bucketInv_run setup expect objects turns
  have hthread := Machine.threads_run (M := Bucket.machine setup)
    (c := staticActivations setup expect objects) hlater
  simp only [run_append]
  generalize run (Bucket.machine setup).step (staticActivations setup expect objects) turns = before
    at hinv hthread ⊢
  have hours := outputsOurs_of_inv hinv hfresh happart haccepted
  obtain ⟨bytes, hfile, -⟩ := (verifyReleaseDir_eq_ok.mp haccepted).1.parsed
  obtain ⟨previous, hprevious⟩ := previousRelease_of_inv hinv hfresh hround
  constructor
  · rintro ⟨previous', n, hdone, -⟩ stored hstored
    by_contra hne
    rw [hfile] at hne
    obtain ⟨e, b', hfails⟩ : ∃ e b', quietly setup t clock
        (staticActivate setup (expect t).modelId (expect t).dim t).run before.world = (.error e, b') :=
      quietly_staticActivate_conflict haccepted hfile hours hstored fun h => hne (congrArg some h.symm)
    have halone := (Machine.done_iff_alone before _ fun _ => True).mp ⟨n, hdone, trivial⟩
    rw [hthread] at halone
    have hresult := congrArg Prod.fst hfails
    exact absurd (halone.1.symm.trans hresult) nofun
  · intro hsame
    obtain ⟨b', hquiet, hhead, -⟩ := quietly_staticActivate haccepted hfile hours
      (fun stored hstored => Option.some.inj ((hsame stored hstored).symm.trans hfile)) hclock
      hprevious
    refine ⟨previous, (Machine.done_iff_alone before _ fun b =>
      b.objects staticHeadKey = some (setup.head.toJsonPretty
        (StaticReleaseHead.new manifest.releaseId clock))).mpr ?_⟩
    rw [hthread]
    show (quietly setup t clock (staticActivate setup (expect t).modelId (expect t).dim t).run
        before.world).1 = _ ∧ (quietly setup t clock (staticActivate setup (expect t).modelId
        (expect t).dim t).run before.world).2.objects staticHeadKey = _
    rw [hquiet]
    exact ⟨rfl, hhead⟩

end Reached

/-! ## Runs over the sample release -/

namespace SampleRelease

/-- The text of a pointer to one release, up to the time, and after it. -/
def headStart (head : StaticReleaseHead) : Bytes :=
  utf8 ("\x7b\n  \"release_id\": " ++ Json.quote head.releaseId ++ ",\n  \"manifest_path\": " ++
    Json.quote head.manifestPath ++ ",\n  \"updated_at\": ")

def headEnd : Bytes := utf8 "\n\x7d"

/-- The printer of pointers, with a parser that reads the pointers to one release. -/
def headCodec (releaseId : String) : StaticHeadCodec where
  toJsonPretty head := headStart head ++ (utf8 head.updatedAt.repr ++ headEnd)
  fromSlice bytes :=
    let start := headStart (StaticReleaseHead.new releaseId 0)
    match (fromUtf8 (window start.length (bytes.length - start.length - headEnd.length) bytes)).bind
        String.toInt? with
    | some updatedAt => .ok (StaticReleaseHead.new releaseId updatedAt)
    | none => .error "invalid type: expected struct StaticReleaseHead"

theorem headCodec_roundTrips (releaseId : String) (updatedAt : Int) :
    (headCodec releaseId).fromSlice
        ((headCodec releaseId).toJsonPretty (StaticReleaseHead.new releaseId updatedAt)) =
      .ok (StaticReleaseHead.new releaseId updatedAt) := by
  have hstart : headStart (StaticReleaseHead.new releaseId updatedAt) =
      headStart (StaticReleaseHead.new releaseId 0) := rfl
  simp only [headCodec, hstart]
  have hwindow : window (headStart (StaticReleaseHead.new releaseId 0)).length
      ((headStart (StaticReleaseHead.new releaseId 0) ++
        (utf8 (StaticReleaseHead.new releaseId updatedAt).updatedAt.repr ++ headEnd)).length -
        (headStart (StaticReleaseHead.new releaseId 0)).length - headEnd.length)
      (headStart (StaticReleaseHead.new releaseId 0) ++
        (utf8 (StaticReleaseHead.new releaseId updatedAt).updatedAt.repr ++ headEnd)) =
      utf8 updatedAt.repr := by
    have hlen : (headStart (StaticReleaseHead.new releaseId 0) ++
        (utf8 (StaticReleaseHead.new releaseId updatedAt).updatedAt.repr ++ headEnd)).length -
        (headStart (StaticReleaseHead.new releaseId 0)).length - headEnd.length =
        (utf8 updatedAt.repr).length := by
      simp only [List.length_append, StaticReleaseHead.new]
      omega
    rw [hlen]
    simp only [window, List.drop_left, List.take_left, StaticReleaseHead.new]
  rw [hwindow, fromUtf8_utf8, Option.bind_some, Int.toInt?_repr]

/-- Runs over some directories, each at the path of its number. -/
def bucketSetup (sha : Sha256) (json : JsonCodec ReleaseManifest) (releaseId : String)
    (dirOf : Nat → ReleaseDir) : BucketSetup where
  sha
  manifest := json
  head := headCodec releaseId
  etag bytes := sha256Hex sha bytes
  dirOf
  pathOf t := s!"release-{t}"

/-- A parser that reads back the texts of some manifests. -/
def parserOfAll (manifests : List ReleaseManifest) (bytes : Bytes) :
    Except String ReleaseManifest :=
  okOr "invalid type: expected struct ReleaseManifest"
    (manifests.find? fun manifest => bytes = utf8 manifest.toJson.render)

theorem roundTrips_parserOfAll {manifests : List ReleaseManifest}
    (hinj : ∀ m ∈ manifests, ∀ m' ∈ manifests, m.toJson.render = m'.toJson.render → m = m') :
    ∀ m ∈ manifests, (env (parserOfAll manifests)).json.RoundTrips m := by
  intro m hm bytes hbytes
  cases hbytes
  refine okOr_eq_ok.mpr ?_
  cases hfind : manifests.find? fun m' => utf8 m.toJson.render = utf8 m'.toJson.render with
  | none =>
      have hnone := List.find?_eq_none.mp hfind m hm
      exact absurd (decide_eq_true rfl) hnone
  | some found =>
      have htext : utf8 m.toJson.render = utf8 found.toJson.render := by
        simpa using List.find?_some hfind
      rw [hinj m hm found (List.mem_of_find?_eq_some hfind) (utf8_inj htext)]

/-- The text of a manifest tells the dataset path. -/
theorem render_source_ne (manifest : ReleaseManifest) :
    ({ manifest with source := source "a.lance" 2 } : ReleaseManifest).toJson.render ≠
      ({ manifest with source := source "b.lance" 2 } : ReleaseManifest).toJson.render := by
  have hpaths : Json.quote "a.lance" = "\"a.lance\"" ∧ Json.quote "b.lance" = "\"b.lance\"" := by
    decide
  intro h
  have hlist := congrArg String.toList h
  simp only [ReleaseManifest.toJson, Json.render, Json.renderFields, source, String.append_assoc,
    String.toList_append, List.append_cancel_left_eq, hpaths] at hlist
  exact absurd hlist (by simp)

/-- Two builds of one content, from two dataset paths, and what verification says of them. -/
theorem two_sources : ∃ (env : ReleaseEnv) (manifest : ReleaseManifest) (dirA dirB : ReleaseDir)
    (bytesA bytesB : Bytes),
    (buildRelease env .v3 [first, second] [unitVector 0, unitVector 1] profile (source "a.lance" 2) =
        .ok ({ manifest with source := source "a.lance" 2 }, dirA) ∧
      Verified env.sha env.json dirA { manifest with source := source "a.lance" 2 } ∧
      dirA releaseManifestFile = some bytesA) ∧
    (buildRelease env .v3 [first, second] [unitVector 0, unitVector 1] profile (source "b.lance" 2) =
        .ok ({ manifest with source := source "b.lance" 2 }, dirB) ∧
      Verified env.sha env.json dirB { manifest with source := source "b.lance" 2 } ∧
      dirB releaseManifestFile = some bytesB) ∧
    bytesA ≠ bytesB := by
  obtain ⟨manifest, dir, hbuild⟩ : ∃ manifest dir, buildRelease (env fun _ => .error "") .v3
      [first, second] [unitVector 0, unitVector 1] profile (source "a.lance" 2) =
        .ok (manifest, dir) :=
    buildRelease_v3_isOk _ twoChunks_checked (by decide) twoChunks_short fun _ => ⟨_, rfl⟩
  have htexts : ∀ m ∈ [{ manifest with source := source "a.lance" 2 },
      { manifest with source := source "b.lance" 2 }], ∀ m' ∈ [{ manifest with
      source := source "a.lance" 2 }, { manifest with source := source "b.lance" 2 }],
      m.toJson.render = m'.toJson.render → m = m' := by
    intro m hm m' hm' htext
    simp only [List.mem_cons, List.not_mem_nil, or_false] at hm hm'
    obtain rfl | rfl := hm <;> obtain rfl | rfl := hm'
    · rfl
    · exact absurd htext (render_source_ne manifest)
    · exact absurd htext.symm (render_source_ne manifest)
    · rfl
  have hparses := roundTrips_parserOfAll htexts
  have hbuilt : ∀ path, ∃ dir, buildRelease (env (parserOfAll
        [{ manifest with source := source "a.lance" 2 }, { manifest with source := source "b.lance" 2 }]))
      .v3 [first, second] [unitVector 0, unitVector 1] profile (source path 2) =
        .ok ({ manifest with source := source path 2 }, dir) := fun path =>
    (buildRelease_source (fun _ => ⟨_, rfl⟩) ((build_fromSlice _ _ _ _ _).trans hbuild)
      (source path 2)).imp fun _ => And.left
  obtain ⟨dirA, hbuildA⟩ := hbuilt "a.lance"
  obtain ⟨dirB, hbuildB⟩ := hbuilt "b.lance"
  have hA := verified_of_buildRelease hbuildA twoChunks_short (hparses _ List.mem_cons_self) (by decide) rfl
    (by decide) (by decide) rfl
  have hB := verified_of_buildRelease hbuildB twoChunks_short
    (hparses _ (List.mem_cons_of_mem _ List.mem_cons_self)) (by decide) rfl (by decide) (by decide) rfl
  obtain ⟨_, _, builtA⟩ := built_of_buildRelease hbuildA
  obtain ⟨_, _, builtB⟩ := built_of_buildRelease hbuildB
  obtain ⟨_, _, _, bytesA, -, -, -, -, htoVecA, hfileA⟩ := builtA.manifest
  obtain ⟨_, _, _, bytesB, -, -, -, -, htoVecB, hfileB⟩ := builtB.manifest
  refine ⟨_, manifest, dirA, dirB, bytesA, bytesB, ⟨hbuildA, hA, hfileA⟩, ⟨hbuildB, hB, hfileB⟩, ?_⟩
  rintro rfl
  exact render_source_ne manifest (utf8_inj
    ((Except.ok.inj htoVecA).trans (Except.ok.inj htoVecB).symm))

/-- What every run over directories of one release id satisfies. -/
theorem bucketSetup_facts {sha : Sha256} {json : JsonCodec ReleaseManifest} {dirOf : Nat → ReleaseDir}
    {manifest : ReleaseManifest} (hdirs : ∀ t, ∃ source,
      Verified sha json (dirOf t) { manifest with source := source }) (expect : Nat → Expectations) :
    FreshBucket (headCodec manifest.releaseId) (fun _ => none) ∧
      HeadsRoundTrip (bucketSetup sha json manifest.releaseId dirOf) expect ∧
      IdsApart (bucketSetup sha json manifest.releaseId dirOf) expect := by
  have hsame : ∀ t m, Accepts (bucketSetup sha json manifest.releaseId dirOf) expect t m →
      m.releaseId = manifest.releaseId ∧ m.idBytes = manifest.idBytes := by
    intro t m haccepted
    obtain ⟨source, hverified⟩ := hdirs t
    obtain ⟨bytes, hfile, hparse⟩ := (verifyReleaseDir_eq_ok.mp haccepted).1.parsed
    obtain ⟨bytes', hfile', hparse'⟩ := hverified.parsed
    obtain rfl := Option.some.inj (hfile.symm.trans hfile')
    obtain rfl := Except.ok.inj (hparse.symm.trans hparse')
    exact ⟨rfl, rfl⟩
  refine ⟨⟨fun _ _ => rfl, nofun⟩, fun t m updatedAt haccepted => ?_, fun t t' m m' h h' _ => ?_⟩
  · rw [(hsame t m haccepted).1]
    exact headCodec_roundTrips manifest.releaseId updatedAt
  · rw [(hsame t m h).2, (hsame t' m' h').2]

end SampleRelease

open SampleRelease

/-- An undisturbed run in an empty bucket comes to an end, with its manifest in place. -/
theorem staticActivate_first {setup : BucketSetup} {expect : Nat → Expectations} {t : Nat}
    {manifest : ReleaseManifest} {bytes : Bytes} {clock : Int}
    (haccepted : Accepts setup expect t manifest)
    (hfile : setup.dirOf t releaseManifestFile = some bytes)
    (hclock : minPlausibleEpochMillis ≤ clock) : ∃ b n,
    quietly setup t clock (staticActivate setup (expect t).modelId (expect t).dim t).run
        { objects := fun _ => none, headWriter := none } =
      (.ok { releaseId := manifest.releaseId, previousReleaseId := none }, b) ∧
    (run (Bucket.machine setup).step (staticActivations setup expect fun _ => none)
        (List.replicate n (t, BucketChoice.undisturbed clock))).threads t =
      .done (.ok { releaseId := manifest.releaseId, previousReleaseId := none }) ∧
    (run (Bucket.machine setup).step (staticActivations setup expect fun _ => none)
        (List.replicate n (t, BucketChoice.undisturbed clock))).world = b ∧
    b.objects (staticReleaseManifestKey manifest.releaseId) = some bytes := by
  obtain ⟨b, hfirst, -, hstored⟩ := quietly_staticActivate
    (b := { objects := fun _ => none, headWriter := none }) haccepted hfile
    (fun _ _ _ hobject => absurd hobject nofun) (fun _ hobject => absurd hobject nofun) hclock rfl
  obtain ⟨n, hdone, hworld⟩ := (Machine.done_iff_alone (M := Bucket.machine setup) (t := t)
    (staticActivations setup expect fun _ => none) _ fun w => w = b).mpr
      ⟨congrArg Prod.fst hfirst, congrArg Prod.snd hfirst⟩
  exact ⟨b, n, hfirst, hdone, hworld, hstored⟩

/-- Thread 0 activates the directory built from `a.lance`.  Then a run over the same directory
succeeds again, and one over the directory built from `b.lance` never does. -/
theorem staticActivate_resumes_rerun : ∃ (setup : BucketSetup) (manifestA manifestB : ReleaseManifest)
    (first : List (Nat × BucketChoice)),
    manifestA.source = source "a.lance" 2 ∧ manifestB.source = source "b.lance" 2 ∧
    manifestA.releaseId = manifestB.releaseId ∧
    (run (Bucket.machine setup).step
        (staticActivations setup (fun _ => { modelId := none, dim := none }) fun _ => none)
        first).threads 0 =
      .done (.ok { releaseId := manifestA.releaseId, previousReleaseId := none }) ∧
    (∃ previous n,
      (run (Bucket.machine setup).step
          (staticActivations setup (fun _ => { modelId := none, dim := none }) fun _ => none)
          (first ++ List.replicate n (2, BucketChoice.undisturbed minPlausibleEpochMillis))).threads
          2 = .done (.ok { releaseId := manifestA.releaseId, previousReleaseId := previous }) ∧
      (run (Bucket.machine setup).step
          (staticActivations setup (fun _ => { modelId := none, dim := none }) fun _ => none)
          (first ++ List.replicate n
            (2, BucketChoice.undisturbed minPlausibleEpochMillis))).world.objects staticHeadKey =
        some (setup.head.toJsonPretty
          (StaticReleaseHead.new manifestA.releaseId minPlausibleEpochMillis))) ∧
    ¬∃ previous n,
      (run (Bucket.machine setup).step
          (staticActivations setup (fun _ => { modelId := none, dim := none }) fun _ => none)
          (first ++ List.replicate n (1, BucketChoice.undisturbed minPlausibleEpochMillis))).threads
          1 = .done (.ok { releaseId := manifestB.releaseId, previousReleaseId := previous }) ∧
      (run (Bucket.machine setup).step
          (staticActivations setup (fun _ => { modelId := none, dim := none }) fun _ => none)
          (first ++ List.replicate n
            (1, BucketChoice.undisturbed minPlausibleEpochMillis))).world.objects staticHeadKey =
        some (setup.head.toJsonPretty
          (StaticReleaseHead.new manifestB.releaseId minPlausibleEpochMillis)) := by
  obtain ⟨env, manifest, dirA, dirB, bytesA, bytesB, ⟨-, hA, hfileA⟩, ⟨-, hB, hfileB⟩, hne⟩ :=
    two_sources
  let expect : Nat → Expectations := fun _ => { modelId := none, dim := none }
  let setup := bucketSetup env.sha env.json manifest.releaseId fun t => if t = 1 then dirB else dirA
  have hdirs : ∀ t, ∃ source, Verified env.sha env.json (if t = 1 then dirB else dirA)
      { manifest with source := source } := by
    intro t
    split
    · exact ⟨_, hB⟩
    · exact ⟨_, hA⟩
  obtain ⟨hfresh, hround, hids⟩ := bucketSetup_facts hdirs expect
  have haccepts : ∀ t ≠ 1, Accepts setup expect t { manifest with source := source "a.lance" 2 } := by
    intro t ht
    refine verifyReleaseDir_eq_ok.mpr ⟨?_, nofun, nofun⟩
    show Verified env.sha env.json (if t = 1 then dirB else dirA) _
    rwa [if_neg ht]
  have hacceptB : Accepts setup expect 1 _ := verifyReleaseDir_eq_ok.mpr ⟨hB, nofun, nofun⟩
  obtain ⟨b, n, -, hdone, hworld, hstored⟩ := staticActivate_first (haccepts 0 (by decide)) hfileA
    (le_refl minPlausibleEpochMillis)
  have hlater : ∀ t ≠ 0, ∀ turn ∈ List.replicate n
      (0, BucketChoice.undisturbed minPlausibleEpochMillis), turn.1 ≠ t := by
    intro t ht turn hturn
    rw [List.eq_of_mem_replicate hturn]
    exact ht.symm
  refine ⟨setup, { manifest with source := source "a.lance" 2 },
    { manifest with source := source "b.lance" 2 },
    List.replicate n (0, BucketChoice.undisturbed minPlausibleEpochMillis), rfl, rfl, rfl, hdone, ?_,
    ?_⟩
  · refine (staticActivate_resumes hfresh hround hids _ (hlater 2 (by decide))
      (haccepts 2 (by decide)) (le_refl minPlausibleEpochMillis)).mpr fun stored hobject => ?_
    rw [hworld] at hobject
    exact hfileA.trans (hstored.symm.trans hobject)
  · intro hresumes
    have hours := (staticActivate_resumes hfresh hround hids _ (hlater 1 (by decide)) hacceptB
      (le_refl minPlausibleEpochMillis)).mp hresumes bytesA (by rw [hworld]; exact hstored)
    exact hne (Option.some.inj (hours.symm.trans hfileB))

/-- Two directories of one content from two dataset paths, both built and verified, have one release
id.  A run over the first, with nothing disturbing it, activates the release in an empty bucket; a
later run over the second, with nothing disturbing it, fails. -/
theorem staticActivate_otherSource : ∃ (env : ReleaseEnv) (manifestA manifestB : ReleaseManifest)
    (dirA dirB : ReleaseDir) (setup : BucketSetup),
    buildRelease env .v3 [first, second] [unitVector 0, unitVector 1] profile
      (source "a.lance" 2) = .ok (manifestA, dirA) ∧
    buildRelease env .v3 [first, second] [unitVector 0, unitVector 1] profile
      (source "b.lance" 2) = .ok (manifestB, dirB) ∧
    manifestA.releaseId = manifestB.releaseId ∧
    setup.sha = env.sha ∧ setup.manifest = env.json ∧
    setup.dirOf = (fun t => if t = 0 then dirA else dirB) ∧
    verifyReleaseDir setup.sha setup.manifest (setup.pathOf 1) dirB none none = .ok manifestB ∧
    ∃ b, quietly setup 0 minPlausibleEpochMillis (staticActivate setup none none 0).run
        { objects := fun _ => none, headWriter := none } =
          (.ok { releaseId := manifestA.releaseId, previousReleaseId := none }, b) ∧
      ∃ e b', quietly setup 1 minPlausibleEpochMillis (staticActivate setup none none 1).run b =
        (.error e, b') := by
  obtain ⟨env, manifest, dirA, dirB, bytesA, bytesB, ⟨hbuildA, hA, hfileA⟩, ⟨hbuildB, hB, hfileB⟩,
    hne⟩ := two_sources
  let expect : Nat → Expectations := fun _ => { modelId := none, dim := none }
  let setup := bucketSetup env.sha env.json manifest.releaseId fun t => if t = 0 then dirA else dirB
  have hdirs : ∀ t, ∃ source, Verified env.sha env.json (if t = 0 then dirA else dirB)
      { manifest with source := source } := by
    intro t
    split
    · exact ⟨_, hA⟩
    · exact ⟨_, hB⟩
  obtain ⟨hfresh, -, hids⟩ := bucketSetup_facts hdirs expect
  have hacceptA : Accepts setup expect 0 _ := verifyReleaseDir_eq_ok.mpr ⟨hA, nofun, nofun⟩
  have hacceptB : Accepts setup expect 1 _ := verifyReleaseDir_eq_ok.mpr ⟨hB, nofun, nofun⟩
  -- the bucket is one that a run has left behind, so nothing in it is foreign
  obtain ⟨b, n, hfirst, -, hworld, hstored⟩ := staticActivate_first hacceptA hfileA
    (le_refl minPlausibleEpochMillis)
  have hinv := bucketInv_run setup expect (fun _ => none)
    (List.replicate n (0, BucketChoice.undisturbed minPlausibleEpochMillis))
  rw [hworld] at hinv
  obtain ⟨e, b', hsecond⟩ := quietly_staticActivate_conflict (t := 1) hacceptB hfileB
    (outputsOurs_of_inv hinv hfresh hids hacceptB) hstored hne
  exact ⟨env, _, _, dirA, dirB, setup, hbuildA, hbuildB, rfl, rfl, rfl, rfl, hacceptB, b, hfirst, e, b',
    hsecond⟩

end LTSearch
