/-
# LTSearch.Indexing.FrozenHead -- the head names a complete, frozen version

Any number of publish and rollback calls on a store that meets the contract of `PublishStorage`
(S3: per-object conditional puts, an atomic conditional write of the head), their storage operations
interleaved in any order, failing anywhere.  The invariant: a stored manifest was stored by a publish
call that had uploaded all its shard files before, and the head names a version with a stored
manifest.  Objects other than the head are never written twice, so whatever is complete stays so.

The calls hand shard directories to the store under keys their manifests choose, and the S3 store
uploads what is below them without looking at the keys.  A step that writes a file of a directory
under the key of the head or of a manifest is called a planting one (`Plants`): it moves the head past
the conditional write, or makes a version look complete before it is.  The results are about the runs
without such a step; the last section has a run with one.
-/
import LTSearch.Node.Rules
import LTSearch.Storage.Printed

namespace LTSearch

open LTSearch.Foundation Contract.Safe

/-- One call on an `IndexPublisher`. -/
inductive PublisherCall where
  | publish (request : PublishRequest)
  | rollback (request : RollbackRequest)

/-- What the call runs. -/
def PublisherCall.program (setup : Setup) (t : Nat) :
    PublisherCall → NodeM (Except PublishError PublishResult)
  | .publish request => (LTSearch.publish setup t request).run
  | .rollback request => (LTSearch.rollback setup request).run

/-- Calls `calls t`, none of which has started, on an empty store over fixed artifact roots. -/
def publishers (setup : Setup) (roots : Nat → String → Option RootItem)
    (calls : Nat → PublisherCall) :
    Config nodeSignature World Nat (Except PublishError PublishResult) where
  world := .init roots
  threads t := (calls t).program setup t

section Statement

variable (setup : Setup) (roots : Nat → String → Option RootItem) (calls : Nat → PublisherCall)

/-- The artifact root of call `t` has this file. -/
def FileAt (t : Nat) (key : String) (bytes : ByteArray) : Prop :=
  ∃ item, roots (setup.rootOf t) key = some item ∧ item.artifact = .file bytes

/-- The artifact root of call `t` has this directory. -/
def DirectoryAt (t : Nat) (key : String) (tree : Tree) : Prop :=
  ∃ item, roots (setup.rootOf t) key = some item ∧ item.artifact = .directory tree

/-- The object that call `t` uploaded under `key` is there, with its bytes, and is not the head. -/
def Present (w : World) (t : Nat) (key : String) (bytes : ByteArray) : Prop :=
  key ≠ indexHeadKey ∧ ∃ segments, w.objects key = some { content := { bytes, segments }, writer := t }

/-- The directory `key` of call `t` is in the store, every file of it. -/
def Uploaded (w : World) (t : Nat) (key : String) : Prop :=
  ∃ tree, DirectoryAt setup roots t key tree ∧
    ∀ f ∈ tree.files, Present w t (childKey key f.1) f.2

/-- The manifest of `v` was stored by a publish call of `request`, whose uploads are all there. -/
structure Complete (w : World) (v : UInt64) (cell : Cell) (request : PublishRequest) : Prop where
  stored : w.objects (versionManifestKey v) = some cell
  call : calls cell.writer = .publish request
  version : request.manifest.versionId = v
  source : FileAt setup roots cell.writer (versionManifestKey v) cell.content.bytes
  decodes : setup.manifest.fromSlice cell.content.bytes = .ok request.manifest
  validates : request.manifest.validate = .ok ()
  shards : ∀ shard ∈ request.manifest.shards, ∀ path ∈ [shard.lancePath, shard.tantivyPath],
    ∃ key, s3Key path = .ok key ∧ Uploaded setup roots w cell.writer key

/-- The step writes a file of a shard directory under the key of the head or of a manifest. -/
def Plants (t : Nat) (op : Op) (c : Choice) (w : World) : Prop :=
  ∃ key content, op = .putObject .directory key content ∧
    (key = indexHeadKey ∨ ∃ v, key = versionManifestKey v) ∧
    (w.putObjectAt t key content c).2.objects key ≠ w.objects key

/-- No step of the run of the calls is a planting one. -/
def PlantsNothing (turns : List (Nat × Choice)) : Prop :=
  (node setup).Allows (fun t op c w => ¬Plants t op c w) (publishers setup roots calls) turns

end Statement

/-! ## The contract -/

/-- What holds of the store in every reachable state. -/
structure StoreInv (setup : Setup) (roots : Nat → String → Option RootItem)
    (calls : Nat → PublisherCall) (w : World) : Prop where
  rootsFixed : w.roots = roots
  manifests : ∀ v cell, w.objects (versionManifestKey v) = some cell →
    ∃ request, Complete setup roots calls w v cell request
  head : ∀ cell, w.objects indexHeadKey = some cell → ∃ v updatedAt,
    v ≠ 0 ∧ minPlausibleEpochMillis ≤ updatedAt ∧
      cell.content.bytes = setup.head.toVec (.new v updatedAt) ∧
      (w.objects (versionManifestKey v)).isSome

/-- Objects other than the head are never changed. -/
def Frozen (w w' : World) : Prop :=
  ∀ key cell, key ≠ indexHeadKey → w.objects key = some cell → w'.objects key = some cell

/-- Nobody else moves the head in the name of `t`. -/
def OwnMoves (t : Nat) (w w' : World) : Prop :=
  ∀ a ∈ w'.history.activated, a.worker = t → a ∈ w.history.activated

/-- Call `t` has not moved the head. -/
def NoMove (t : Nat) (w : World) : Prop := ∀ a ∈ w.history.activated, a.worker ≠ t

/-- What the calls promise each other. -/
def storeContract (setup : Setup) (roots : Nat → String → Option RootItem)
    (calls : Nat → PublisherCall) : Contract (node setup) where
  inv := StoreInv setup roots calls
  change := Frozen
  frame := OwnMoves
  allowed := fun t op c w => ¬Plants t op c w
  change_refl := fun _ _ _ _ h => h
  change_trans := fun h h' key cell hne hcell => h' key cell hne (h key cell hne hcell)
  frame_refl := fun _ _ _ ha _ => ha
  frame_trans := fun h h' a ha ht => h a (h' a ha ht) ht

variable {setup : Setup} {roots : Nat → String → Option RootItem} {calls : Nat → PublisherCall}

theorem Present.frozen {w w' : World} {t : Nat} {key : String} {bytes : ByteArray}
    (h : Present w t key bytes) (hfrozen : Frozen w w') : Present w' t key bytes := by
  obtain ⟨hne, segments, hcell⟩ := h
  exact ⟨hne, segments, hfrozen _ _ hne hcell⟩

/-- Completeness survives every step. -/
theorem Complete.frozen {w w' : World} {v : UInt64} {cell : Cell} {request : PublishRequest}
    (h : Complete setup roots calls w v cell request) (hfrozen : Frozen w w') :
    Complete setup roots calls w' v cell request := by
  refine { h with stored := hfrozen _ _ (versionManifestKey_ne_head v) h.stored, shards := ?_ }
  intro shard hshard path hpath
  obtain ⟨key, hkey, tree, htree, hfiles⟩ := h.shards shard hshard path hpath
  exact ⟨key, hkey, tree, htree, fun f hf => (hfiles f hf).frozen hfrozen⟩

/-! ## Keeping the contract -/

section Keeping

variable {w w' : World} {t : Nat}

theorem NoMove.stable : (storeContract setup roots calls).Stable t (NoMove t) := by
  intro w w' hrely _ h a ha ht
  exact h a (hrely.2 a ha ht) ht

/-- What call `t` has uploaded so far, with the head not moved. -/
structure Held (t : Nat) (objects : List (String × ByteArray)) (w : World) : Prop where
  noMove : NoMove t w
  present : ∀ o ∈ objects, Present w t o.1 o.2

theorem Held.stable (objects : List (String × ByteArray)) :
    (storeContract setup roots calls).Stable t (Held t objects) := by
  intro w w' hrely hinv h
  exact ⟨NoMove.stable w w' hrely hinv h.noMove, fun o ho => (h.present o ho).frozen hrely.1⟩

/-- A step that leaves the objects, the roots and the activations alone. -/
theorem keeps_of_same (h : StoreInv setup roots calls w) (hobjects : w'.objects = w.objects)
    (hroots : w'.roots = w.roots) (hactivated : w'.history.activated = w.history.activated) :
    (storeContract setup roots calls).Keeps t w w' := by
  refine ⟨⟨hroots.trans h.rootsFixed, fun v cell hcell => ?_, fun cell hcell => ?_⟩,
    fun key cell _ hcell => hobjects ▸ hcell, fun t' _ a ha _ => hactivated ▸ ha⟩
  · rw [hobjects] at hcell
    obtain ⟨request, hcomplete⟩ := h.manifests v cell hcell
    refine ⟨request, { hcomplete with stored := hobjects ▸ hcomplete.stored, shards := ?_ }⟩
    intro shard hshard path hpath
    obtain ⟨key, hkey, tree, htree, hfiles⟩ := hcomplete.shards shard hshard path hpath
    refine ⟨key, hkey, tree, htree, fun f hf => ?_⟩
    obtain ⟨hne, segments, hpresent⟩ := hfiles f hf
    exact ⟨hne, segments, hobjects ▸ hpresent⟩
  · rw [hobjects] at hcell ⊢
    exact h.head cell hcell

/-- An object written where nothing was. -/
theorem frozen_putCell {key : String} {cell : Cell} (hnone : w.objects key = none) :
    Frozen w (w.putCell key cell) := by
  intro k c _ hc
  have hk : k ≠ key := by
    rintro rfl
    rw [hnone] at hc
    cases hc
  rw [World.objects_putCell_of_ne hk]
  exact hc

/-- Putting an object that is not the head keeps the head, and the manifests when it completes the
one it stores. -/
theorem inv_putCell (h : StoreInv setup roots calls w) {key : String} {cell : Cell} (hnone : w.objects key = none) (hne : key ≠ indexHeadKey)
    (hmanifest : ∀ v, key = versionManifestKey v →
      ∃ request, Complete setup roots calls (w.putCell key cell) v cell request) :
    StoreInv setup roots calls (w.putCell key cell) := by
  have hfrozen : Frozen w (w.putCell key cell) := frozen_putCell hnone
  refine ⟨h.rootsFixed, fun v c hc => ?_, fun c hc => ?_⟩
  · by_cases hv : versionManifestKey v = key
    · subst hv
      rw [World.objects_putCell_self] at hc
      cases hc
      exact hmanifest v rfl
    · rw [World.objects_putCell_of_ne hv] at hc
      obtain ⟨request, hcomplete⟩ := h.manifests v c hc
      exact ⟨request, hcomplete.frozen hfrozen⟩
  · rw [World.objects_putCell_of_ne hne.symm] at hc
    obtain ⟨v, updatedAt, hv, ht, hbytes, hsome⟩ := h.head c hc
    refine ⟨v, updatedAt, hv, ht, hbytes, ?_⟩
    obtain ⟨m, hm⟩ := Option.isSome_iff_exists.mp hsome
    rw [hfrozen _ _ (versionManifestKey_ne_head v) hm]
    rfl

/-- A put that leaves the head alone is not written down. -/
theorem apply_putObject (haws : setup.backend = .aws) {upload : Upload} {key : String}
    {content : Content} {c : Choice}
    (hhead : (w.putObjectAt t key content c).2.objects indexHeadKey = w.objects indexHeadKey) :
    (node setup).apply t (.putObject upload key content) c w = w.putObjectAt t key content c := by
  have hbytes : (w.putObjectAt t key content c).2.headBytes setup = w.headBytes setup := by
    simp only [World.headBytes, haws, hhead]
  exact Prod.ext rfl (World.noteActivation_of_eq hbytes)

/-- Where a file of a directory is written by a step that plants nothing. -/
theorem apart_of_not_plants {key : String} {content : Content} {c : Choice}
    (h : ¬Plants t (.putObject .directory key content) c w) (hnone : w.objects key = none)
    (heq : (w.putObjectAt t key content c).2 = w.putCell key { content, writer := t }) :
    key ≠ indexHeadKey ∧ ∀ v, key ≠ versionManifestKey v := by
  have hwritten : (w.putObjectAt t key content c).2.objects key ≠ w.objects key := by
    rw [heq, World.objects_putCell_self, hnone]
    exact Option.some_ne_none _
  refine ⟨fun hkey => ?_, fun v hkey => ?_⟩
  · exact h ⟨key, content, rfl, .inl hkey, hwritten⟩
  · exact h ⟨key, content, rfl, .inr ⟨v, hkey⟩, hwritten⟩

/-- A conditional put which, if it writes, does not write the head, and completes the version whose
manifest it writes. -/
theorem keeps_put (haws : setup.backend = .aws) (h : StoreInv setup roots calls w) {upload : Upload}
    {key : String} {content : Content} {c : Choice}
    (hplace : w.objects key = none →
      (w.putObjectAt t key content c).2 = w.putCell key { content, writer := t } →
      key ≠ indexHeadKey ∧ ∀ v, key = versionManifestKey v → ∃ request,
        Complete setup roots calls (w.putCell key { content, writer := t }) v
          { content, writer := t } request) :
    (node setup).apply t (.putObject upload key content) c w = w.putObjectAt t key content c ∧
      (storeContract setup roots calls).Keeps t w (w.putObjectAt t key content c).2 := by
  rcases World.putObjectAt_cases w t key content c with ⟨-, heq | heq⟩ | ⟨hnone, heq⟩
  · refine ⟨apply_putObject haws (by rw [heq]), ?_⟩
    rw [heq]
    exact .refl h
  · refine ⟨apply_putObject haws (by rw [heq]; rfl), ?_⟩
    rw [heq]
    exact keeps_of_same h rfl rfl rfl
  · obtain ⟨hne, hmanifest⟩ := hplace hnone heq
    refine ⟨apply_putObject haws ?_, ?_⟩
    · rw [heq, World.objects_putCell_of_ne hne.symm]
    · rw [heq]
      exact ⟨inv_putCell h hnone hne hmanifest, frozen_putCell hnone, fun t' _ a ha _ => ha⟩

theorem NoMove.putObjectAt (h : NoMove t w) (key : String) (content : Content) (c : Choice) :
    NoMove t (w.putObjectAt t key content c).2 := by
  rcases World.putObjectAt_cases w t key content c with ⟨-, heq | heq⟩ | ⟨-, heq⟩ <;>
    (rw [heq]; exact h)

/-- What a put that was answered with success leaves behind. -/
theorem Held.putObjectAt {objects : List (String × ByteArray)} (h : Held t objects w) {key : String}
    {content : Content} {c : Choice}
    (hne : (w.putObjectAt t key content c).2 = w.putCell key { content, writer := t } →
      w.objects key = none → key ≠ indexHeadKey)
    (hstored : (w.putObjectAt t key content c).1 = .stored) :
    Held t ((key, content.bytes) :: objects) (w.putObjectAt t key content c).2 := by
  refine ⟨h.noMove.putObjectAt key content c, fun o ho => ?_⟩
  rcases World.putObjectAt_cases w t key content c with ⟨hfail, -⟩ | ⟨hnone, heq⟩
  · exact absurd hstored hfail
  rw [heq]
  rcases List.mem_cons.mp ho with rfl | ho
  · exact ⟨hne heq hnone, content.segments, World.objects_putCell_self _ _⟩
  · exact (h.present o ho).frozen (frozen_putCell hnone)

/-- The swap of the head to a version whose manifest is stored. -/
theorem keeps_swap (haws : setup.backend = .aws)
    (h : StoreInv setup roots calls w)
    {seen : Option VersionedObject} {v : UInt64} {updatedAt : Int} {c : Choice} (hv : v ≠ 0)
    (ht : minPlausibleEpochMillis ≤ updatedAt)
    (hstored : (w.objects (versionManifestKey v)).isSome) :
    (storeContract setup roots calls).Keeps t w
      ((node setup).apply t (.swapHead seen (setup.head.toVec (.new v updatedAt))) c w).2 := by
  let value := setup.head.toVec (.new v updatedAt)
  change (storeContract setup roots calls).Keeps t w
    ((w.swapHeadAt setup t seen value c).2.noteActivation setup t w)
  rcases World.swapHeadAt_aws haws w t seen value c with ⟨-, heq⟩ | ⟨-, heq⟩
  · rw [heq, World.noteActivation_self]
    exact .refl h
  have hobjects : ∀ k, k ≠ indexHeadKey →
      ((w.swapHeadAt setup t seen value c).2.noteActivation setup t w).objects k =
        w.objects k := by
    intro k hk
    rw [heq, World.objects_noteActivation, World.objects_noteSwap]
    exact World.objects_putCell_of_ne hk _
  have hfrozen : Frozen w ((w.swapHeadAt setup t seen value c).2.noteActivation setup t w) :=
    fun k cell hk hcell => (hobjects k hk).trans hcell
  refine ⟨⟨?_, fun u cell hcell => ?_, fun cell hcell => ?_⟩, hfrozen, ?_⟩
  · rw [World.roots_noteActivation, heq, World.roots_noteSwap]
    exact h.rootsFixed
  · rw [hobjects _ (versionManifestKey_ne_head u)] at hcell
    obtain ⟨request, hcomplete⟩ := h.manifests u cell hcell
    exact ⟨request, hcomplete.frozen hfrozen⟩
  · rw [World.objects_noteActivation, heq, World.objects_noteSwap] at hcell
    have hself : (w.putHead t value).objects indexHeadKey =
        some { content := { bytes := value, segments := [] }, writer := t } :=
      World.objects_putCell_self _ _
    rw [hself] at hcell
    cases hcell
    exact ⟨v, updatedAt, hv, ht, rfl, by rw [hobjects _ (versionManifestKey_ne_head v)]; exact hstored⟩
  · intro t' ht' a ha hworker
    rcases World.activated_noteActivation setup t w (w.swapHeadAt setup t seen value c).2 with
      hsame | ⟨-, hnew⟩
    · rw [hsame, heq, World.activated_noteSwap] at ha
      exact ha
    · rw [hnew, heq, World.activated_noteSwap] at ha
      rcases List.mem_append.mp ha with ha | ha
      · exact ha
      · obtain rfl := List.mem_singleton.mp ha
        exact absurd hworker.symm ht'

end Keeping

/-! ## The uploads -/

section Uploads

variable {w : World} {t : Nat} {objects : List (String × ByteArray)}

/-- A put either fails without moving the head, or its object is there. -/
theorem safe_awsPut (haws : setup.backend = .aws) {upload : Upload} {key : String} {content : Content}
    (hplace : ∀ w' c, StoreInv setup roots calls w' → Held t objects w' →
      ¬Plants t (.putObject upload key content) c w' → w'.objects key = none →
      (w'.putObjectAt t key content c).2 = w'.putCell key { content, writer := t } →
      key ≠ indexHeadKey ∧ ∀ v, key = versionManifestKey v → ∃ request,
        Complete setup roots calls (w'.putCell key { content, writer := t }) v
          { content, writer := t } request)
    (hw : Held t objects w) :
    (storeContract setup roots calls).Safe t (awsPut upload key content).run
      (Outcome (fun _ => Held t ((key, content.bytes) :: objects)) fun _ => NoMove t) w := by
  unfold awsPut
  refine bindExcept (liftExcept (Contract.Safe.ask (Held.stable objects) hw ?_))
  intro w' c hinv hheld hallowed
  have hplace' := hplace w' c hinv hheld hallowed
  obtain ⟨happly, hkeeps⟩ := @keeps_put _ _ _ _ _ haws hinv upload _ _ _ hplace'
  rw [happly]
  refine ⟨hkeeps, fun w'' hrely hinv'' => ?_⟩
  have hfailed : ∀ w₃, (storeContract setup roots calls).Rely t w'' w₃ →
      StoreInv setup roots calls w₃ → NoMove t w₃ := fun w₃ hrely' hinv₃ =>
    NoMove.stable _ _ (hrely.trans hrely') hinv₃ (hheld.noMove.putObjectAt key content c)
  cases hans : (w'.putObjectAt t key content c).1 with
  | stored =>
      refine pureExcept fun w₃ hrely' hinv₃ => ?_
      have hheld' := hheld.putObjectAt (fun heq hnone => (hplace' hnone heq).1) hans
      exact Held.stable _ _ _ (hrely.trans hrely') hinv₃ hheld'
  | preconditionFailed => exact throwExcept hfailed
  | failed error => exact throwExcept hfailed

/-- The files of a directory, put one after the other. -/
theorem safe_awsPutTree (haws : setup.backend = .aws) {key : String} (segments : List String)
    (files : List (String × ByteArray)) (hw : Held t objects w) :
    (storeContract setup roots calls).Safe t (awsPutTree key segments files).run
      (Outcome (fun _ w' => ∃ objects', Held t objects' w' ∧ objects ⊆ objects' ∧
        ∀ f ∈ files, (childKey key f.1, f.2) ∈ objects') fun _ => NoMove t) w := by
  induction files generalizing objects w with
  | nil =>
      refine pureExcept fun w' hrely hinv => ⟨objects, ?_, List.Subset.refl _, by simp⟩
      exact Held.stable objects w w' hrely hinv hw
  | cons f rest ih =>
      refine bindExcept ((safe_awsPut haws ?_ hw).mono fun r w' _ hr => ?_)
      · -- no step plants the file, so it is neither the head nor a manifest
        intro w' c _ _ hallowed hnone heq
        obtain ⟨hne, hmanifest⟩ := apart_of_not_plants hallowed hnone heq
        exact ⟨hne, fun v hv => absurd hv (hmanifest v)⟩
      cases r with
      | error e => exact hr
      | ok _ =>
          refine (ih hr).mono fun r w'' _ hr => ?_
          cases r with
          | error e => exact hr
          | ok _ =>
              obtain ⟨objects', hheld, hsub, hfiles⟩ := hr
              refine ⟨objects', hheld, fun o ho => hsub (List.mem_cons_of_mem _ ho), fun g hg => ?_⟩
              rcases List.mem_cons.mp hg with rfl | hg
              · exact hsub List.mem_cons_self
              · exact hfiles g hg

/-- The directory `key` of call `t`, every file of it among the objects held. -/
def InHand (setup : Setup) (roots : Nat → String → Option RootItem) (t : Nat)
    (objects : List (String × ByteArray)) (key : String) : Prop :=
  ∃ tree, DirectoryAt setup roots t key tree ∧
    ∀ f ∈ tree.files, (childKey key f.1, f.2) ∈ objects

theorem InHand.mono {objects' : List (String × ByteArray)} {key : String} (hsub : objects ⊆ objects')
    (h : InHand setup roots t objects key) : InHand setup roots t objects' key := by
  obtain ⟨tree, htree, hfiles⟩ := h
  exact ⟨tree, htree, fun f hf => hsub (hfiles f hf)⟩

theorem safe_uploadDirectory (haws : setup.backend = .aws) (key : String) (hw : Held t objects w) :
    (storeContract setup roots calls).Safe t (uploadDirectory setup key).run
      (Outcome (fun _ w' => ∃ objects', Held t objects' w' ∧ objects ⊆ objects' ∧
        InHand setup roots t objects' key) fun _ => NoMove t) w := by
  unfold uploadDirectory
  simp only [haws]
  refine bindExcept (mapErrorExcept (safe_read (fun _ _ => rfl) (Held.stable objects) hw ?_))
  intro w' c hinv hheld _ w'' hrely hinv''
  have hheld'' := Held.stable objects w' w'' hrely hinv'' hheld
  cases hans : (w'.perform setup t (.readTree key) c).1 with
  | error e => exact hheld''.noMove
  | ok found =>
      obtain ⟨tree, segments⟩ := found
      obtain ⟨mover, hitem⟩ := World.readTree_eq_ok hans
      rw [hinv.rootsFixed] at hitem
      have htree : DirectoryAt setup roots t key tree := ⟨_, hitem, rfl⟩
      refine (safe_awsPutTree haws segments tree.files hheld'').mono ?_
      intro r w₃ _ hr
      cases r with
      | error e => exact hr
      | ok _ =>
          obtain ⟨objects', hheld', hsub, hfiles⟩ := hr
          exact ⟨objects', hheld', hsub, tree, htree, hfiles⟩

theorem safe_uploadDirectories (haws : setup.backend = .aws) (keys : List String)
    (hw : Held t objects w) :
    (storeContract setup roots calls).Safe t (uploadDirectories setup keys).run
      (Outcome (fun _ w' => ∃ objects', Held t objects' w' ∧ objects ⊆ objects' ∧
        ∀ key ∈ keys, InHand setup roots t objects' key) fun _ => NoMove t) w := by
  induction keys generalizing objects w with
  | nil =>
      refine pureExcept fun w' hrely hinv => ⟨objects, ?_, List.Subset.refl _, by simp⟩
      exact Held.stable objects w w' hrely hinv hw
  | cons key rest ih =>
      refine bindExcept ((safe_uploadDirectory haws key hw).mono fun r w' _ hr => ?_)
      cases r with
      | error e => exact hr
      | ok _ =>
          obtain ⟨objects', hheld, hsub, hthis⟩ := hr
          refine (ih hheld).mono fun r w'' _ hr => ?_
          cases r with
          | error e => exact hr
          | ok _ =>
              obtain ⟨objects'', hheld'', hsub', hrest⟩ := hr
              refine ⟨objects'', hheld'', List.Subset.trans hsub hsub', fun k hk => ?_⟩
              rcases List.mem_cons.mp hk with rfl | hk
              · exact hthis.mono hsub'
              · exact hrest k hk

end Uploads

/-! ## The checks before the uploads -/

section Checks

variable {w : World} {t : Nat}

/-- The directories to upload are those of the shards, under their keys. -/
def ShardKeys (shards : List ShardManifest) (keys : List String) : Prop :=
  (∀ shard ∈ shards, ∀ path ∈ [shard.lancePath, shard.tantivyPath],
    ∃ key ∈ keys, s3Key path = .ok key) ∧
  ∀ key ∈ keys, ∃ shard ∈ shards, ∃ path ∈ [shard.lancePath, shard.tantivyPath],
    s3Key path = .ok key

theorem safe_prepareShard (shard : ShardManifest) (hw : NoMove t w) :
    (storeContract setup roots calls).Safe t (prepareShard shard).run
      (Outcome (fun keys w' => NoMove t w' ∧ ShardKeys [shard] keys) fun _ => NoMove t) w := by
  have hstable : (storeContract setup roots calls).Stable t (NoMove t) := NoMove.stable
  unfold prepareShard
  refine bindCheck (fun lanceKey hlance w₁ hrely hinv => ?_)
    fun e _ w₁ hrely hinv => hstable w w₁ hrely hinv hw
  refine bindCheck (fun tantivyKey htantivy w₂ hrely₂ hinv₂ => ?_)
    fun e _ w₂ hrely₂ hinv₂ => hstable w₁ w₂ hrely₂ hinv₂ (hstable w w₁ hrely hinv hw)
  have hw₂ := hstable w w₂ (hrely.trans hrely₂) hinv₂ hw
  -- the four reads of the artifact root decide nothing but whether the call goes on
  refine bindAny (safe_readAny (fun _ _ => rfl) hstable hw₂) (fun _ w₃ _ hw₃ => ?_)
    fun _ _ _ h => h
  refine bindAny (safe_readAny (fun _ _ => rfl) hstable hw₃) (fun _ w₄ _ hw₄ => ?_)
    fun _ _ _ h => h
  refine bindAny (safe_readAny (fun _ _ => rfl) hstable hw₄) (fun _ w₅ _ hw₅ => ?_)
    fun _ _ _ h => h
  refine bindAny (safe_readAny (fun _ _ => rfl) hstable hw₅) (fun _ w₆ _ hw₆ => ?_)
    fun _ _ _ h => h
  refine pureExcept fun w₇ hrely₇ hinv₇ => ⟨hstable w₆ w₇ hrely₇ hinv₇ hw₆, ?_, ?_⟩
  · intro s hs path hpath
    obtain rfl := List.mem_singleton.mp hs
    rcases List.mem_pair.mp hpath with rfl | rfl
    · exact ⟨lanceKey, List.mem_cons_self, hlance⟩
    · exact ⟨tantivyKey, List.mem_cons_of_mem _ List.mem_cons_self, htantivy⟩
  · intro key hkey
    refine ⟨shard, List.mem_singleton.mpr rfl, ?_⟩
    rcases List.mem_pair.mp hkey with rfl | rfl
    · exact ⟨_, List.mem_cons_self, hlance⟩
    · exact ⟨_, List.mem_cons_of_mem _ List.mem_cons_self, htantivy⟩

theorem safe_prepareShards (shards : List ShardManifest) (hw : NoMove t w) :
    (storeContract setup roots calls).Safe t (prepareShards shards).run
      (Outcome (fun keys w' => NoMove t w' ∧ ShardKeys shards keys) fun _ => NoMove t) w := by
  induction shards generalizing w with
  | nil =>
      refine pureExcept fun w' hrely hinv => ⟨NoMove.stable w w' hrely hinv hw, ?_, ?_⟩ <;> simp
  | cons shard rest ih =>
      refine bindExcept ((safe_prepareShard shard hw).mono fun r w₁ _ hr => ?_)
      cases r with
      | error e => exact hr
      | ok keys =>
          obtain ⟨hw₁, hkeys⟩ := hr
          refine bindExcept ((ih hw₁).mono fun r w₂ _ hr => ?_)
          cases r with
          | error e => exact hr
          | ok others =>
              obtain ⟨hw₂, hothers⟩ := hr
              refine pureExcept fun w₃ hrely hinv => ⟨NoMove.stable w₂ w₃ hrely hinv hw₂, ?_, ?_⟩
              · intro s hs path hpath
                rcases List.mem_cons.mp hs with rfl | hs
                · obtain ⟨key, hkey, heq⟩ := hkeys.1 s (List.mem_singleton.mpr rfl) path hpath
                  exact ⟨key, List.mem_append_left _ hkey, heq⟩
                · obtain ⟨key, hkey, heq⟩ := hothers.1 s hs path hpath
                  exact ⟨key, List.mem_append_right _ hkey, heq⟩
              · intro key hkey
                rcases List.mem_append.mp hkey with hkey | hkey
                · obtain ⟨s, hs, hpath⟩ := hkeys.2 key hkey
                  obtain rfl := List.mem_singleton.mp hs
                  exact ⟨s, List.mem_cons_self, hpath⟩
                · obtain ⟨s, hs, hpath⟩ := hothers.2 key hkey
                  exact ⟨s, List.mem_cons_of_mem _ hs, hpath⟩

/-- The artifacts of a request: its manifest is on the disk, and the directories are its shards'. -/
theorem safe_openArtifacts (manifest : IndexManifest) (hw : NoMove t w) :
    (storeContract setup roots calls).Safe t (openArtifacts setup t manifest).run
      (Outcome (fun keys w' => NoMove t w' ∧ ShardKeys manifest.shards keys ∧
        ∃ bytes, FileAt setup roots t (versionManifestKey manifest.versionId) bytes ∧
          setup.manifest.fromSlice bytes = .ok manifest) fun _ => NoMove t) w := by
  have hstable : (storeContract setup roots calls).Stable t (NoMove t) := NoMove.stable
  unfold openArtifacts
  refine bindCheck (fun _ _ w₁ hrely hinv => ?_) fun e _ w₁ hrely hinv =>
    hstable w w₁ hrely hinv hw
  refine bindAny (safe_readAny (fun _ _ => rfl) hstable (hstable w w₁ hrely hinv hw))
    (fun _ w₂ _ hw₂ => ?_) fun _ _ _ h => h
  refine bindExcept (mapErrorExcept (safe_read (fun _ _ => rfl) hstable hw₂ ?_))
  intro w₃ c hinv₃ hw₃ _ w₄ hrely₄ hinv₄
  have hw₄ := hstable w₃ w₄ hrely₄ hinv₄ hw₃
  cases hans : (w₃.perform setup t (.readFile (versionManifestKey manifest.versionId)) c).1 with
  | error e => exact hw₄
  | ok content =>
      obtain ⟨mover, hitem⟩ := World.readFile_eq_ok hans
      rw [hinv₃.rootsFixed] at hitem
      refine bindCheck (fun _ hcheck w₅ hrely₅ hinv₅ => ?_) fun e _ w₅ hrely₅ hinv₅ =>
        hstable w₄ w₅ hrely₅ hinv₅ hw₄
      have hdecodes : setup.manifest.fromSlice content.bytes = .ok manifest := by
        unfold checkManifestBytes at hcheck
        obtain ⟨parsed, hparsed, hsame⟩ := bind_eq_ok.mp hcheck
        rw [wrapIo, mapError_eq_ok] at hparsed
        rw [hparsed, not_not.mp (rejectIf_eq_ok.mp hsame)]
      refine (safe_prepareShards manifest.shards (hstable w₄ w₅ hrely₅ hinv₅ hw₄)).mono ?_
      intro r w₆ _ hr
      cases r with
      | error e => exact hr
      | ok keys => exact ⟨hr.1, hr.2, content.bytes, ⟨_, hitem, rfl⟩, hdecodes⟩

/-- The checks against the head. -/
theorem safe_openPublish (request : PublishRequest) (hw : NoMove t w) :
    (storeContract setup roots calls).Safe t (openPublish setup request).run
      (Outcome (fun _ w' => NoMove t w' ∧ request.manifest.validate = .ok () ∧
        minPlausibleEpochMillis ≤ request.updatedAt ∧ request.manifest.versionId ≠ 0)
        fun _ => NoMove t) w := by
  have hstable : (storeContract setup roots calls).Stable t (NoMove t) := NoMove.stable
  unfold openPublish
  refine bindCheck (fun _ hvalid w₁ hrely₁ hinv₁ => ?_) fun e _ w₁ hrely₁ hinv₁ =>
    hstable w w₁ hrely₁ hinv₁ hw
  have hw₁ := hstable w w₁ hrely₁ hinv₁ hw
  refine bindCheck (fun _ htime w₂ hrely₂ hinv₂ => ?_) fun e _ w₂ hrely₂ hinv₂ =>
    hstable w₁ w₂ hrely₂ hinv₂ hw₁
  have hw₂ := hstable w₁ w₂ hrely₂ hinv₂ hw₁
  refine bindAny (safe_readAny (fun _ _ => rfl) hstable hw₂) (fun _ w₃ _ hw₃ => ?_)
    fun _ _ _ h => h
  refine bindCheck (fun head _ w₄ hrely₄ hinv₄ => ?_) fun e _ w₄ hrely₄ hinv₄ =>
    hstable w₃ w₄ hrely₄ hinv₄ hw₃
  have hw₄ := hstable w₃ w₄ hrely₄ hinv₄ hw₃
  refine bindCheck (fun _ hcheck w₅ hrely₅ hinv₅ => ?_) fun e _ w₅ hrely₅ hinv₅ =>
    hstable w₄ w₅ hrely₅ hinv₅ hw₄
  refine pureExcept fun w₆ hrely₆ hinv₆ => ⟨hstable w₄ w₆ (hrely₅.trans hrely₆) hinv₆ hw₄,
    mapError_eq_ok.mp hvalid, ?_, ?_⟩
  · exact not_lt.mp (rejectIf_eq_ok.mp htime)
  · exact rejectIf_eq_ok.mp (check_bind_eq_ok.mp hcheck).1

end Checks

/-! ## The whole calls -/

section Calls

variable {w : World} {t : Nat}

/-- The manifest goes last: when it is stored, its version is complete. -/
theorem safe_uploadManifest (haws : setup.backend = .aws)
    {request : PublishRequest} (hcall : calls t = .publish request)
    (hvalid : request.manifest.validate = .ok ()) {bytes : ByteArray}
    (hfile : FileAt setup roots t (versionManifestKey request.manifest.versionId) bytes)
    (hdecodes : setup.manifest.fromSlice bytes = .ok request.manifest)
    {keys : List String} (hkeys : ShardKeys request.manifest.shards keys)
    {objects : List (String × ByteArray)}
    (hhand : ∀ key ∈ keys, InHand setup roots t objects key) (hw : Held t objects w) :
    (storeContract setup roots calls).Safe t
      (uploadFile setup t (versionManifestKey request.manifest.versionId)).run
      (Outcome (fun _ w' => NoMove t w' ∧
        (w'.objects (versionManifestKey request.manifest.versionId)).isSome)
        fun _ => NoMove t) w := by
  unfold uploadFile
  simp only [haws]
  refine bindExcept (mapErrorExcept (safe_read (fun _ _ => rfl) (Held.stable objects) hw ?_))
  intro w₁ c hinv₁ hheld₁ _ w₂ hrely₂ hinv₂
  have hheld₂ := Held.stable objects w₁ w₂ hrely₂ hinv₂ hheld₁
  cases hans : (w₁.perform setup t
      (.readFile (versionManifestKey request.manifest.versionId)) c).1 with
  | error e => exact hheld₂.noMove
  | ok content =>
      obtain ⟨mover, hitem⟩ := World.readFile_eq_ok hans
      rw [hinv₁.rootsFixed] at hitem
      -- the file that is uploaded is the file that was checked
      have hbytes : content.bytes = bytes := by
        obtain ⟨item, hroot, hartifact⟩ := hfile
        rw [hroot] at hitem
        cases hitem
        cases hartifact
        rfl
      have hne := versionManifestKey_ne_head request.manifest.versionId
      refine (safe_awsPut haws (fun w₃ _ hinv₃ hheld₃ _ hnone _ => ⟨hne, fun v hv => ?_⟩) hheld₂).mono ?_
      · have hversion := versionManifestKey_inj.mp hv
        subst hversion
        refine ⟨request, ?_⟩
        exact {
          stored := World.objects_putCell_self _ _
          call := hcall
          version := rfl
          source := hbytes ▸ hfile
          decodes := hbytes ▸ hdecodes
          validates := hvalid
          shards := by
            intro shard hshard path hpath
            obtain ⟨key, hkey, heq⟩ := hkeys.1 shard hshard path hpath
            obtain ⟨tree, htree, hfiles⟩ := hhand key hkey
            refine ⟨key, heq, tree, htree, fun f hf => ?_⟩
            exact (hheld₃.present _ (hfiles f hf)).frozen (frozen_putCell hnone) }
      · intro r w₃ _ hr
        cases r with
        | error e => exact hr
        | ok _ =>
            obtain ⟨-, segments, hstored⟩ := hr.present _ List.mem_cons_self
            exact ⟨hr.noMove, by rw [hstored]; rfl⟩

/-- The head moves to a version whose manifest is stored, or the call fails without moving it. -/
theorem safe_activate (haws : setup.backend = .aws)
    (what : String) {v : UInt64} {updatedAt : Int} (hv : v ≠ 0)
    (ht : minPlausibleEpochMillis ≤ updatedAt) (expected : Option UInt64)
    (seen : Option VersionedObject) (head : Option ManifestHead)
    (hw : NoMove t w) (hstored : (w.objects (versionManifestKey v)).isSome) :
    (storeContract setup roots calls).Safe t
      (activate setup what v updatedAt expected seen head).run
      (Outcome (fun _ _ => True) fun _ => NoMove t) w := by
  have hstable : (storeContract setup roots calls).Stable t (NoMove t) := NoMove.stable
  unfold activate
  refine bindExcept (Contract.Safe.ask
    (P := fun w => NoMove t w ∧ (w.objects (versionManifestKey v)).isSome) ?_ ⟨hw, hstored⟩ ?_)
  · intro w w' hrely hinv h
    refine ⟨hstable w w' hrely hinv h.1, ?_⟩
    obtain ⟨cell, hcell⟩ := Option.isSome_iff_exists.mp h.2
    rw [hrely.1 _ _ (versionManifestKey_ne_head v) hcell]
    rfl
  · intro w₁ c hinv₁ hP _
    refine ⟨keeps_swap haws hinv₁ hv ht hP.2, fun w₂ hrely₂ hinv₂ => ?_⟩
    rcases World.swapHeadAt_aws haws w₁ t seen (setup.head.toVec (.new v updatedAt)) c with
      ⟨hfail, heq⟩ | ⟨-, heq⟩
    · have hsame : ((node setup).apply t
          (.swapHead seen (setup.head.toVec (.new v updatedAt))) c w₁).2 = w₁ := by
        change (w₁.swapHeadAt setup t seen _ c).2.noteActivation setup t w₁ = w₁
        rw [heq, World.noteActivation_self]
      rw [hsame] at hrely₂
      have hw₂ := hstable w₁ w₂ hrely₂ hinv₂ hP.1
      change Outcome _ _ (w₁.swapHeadAt setup t seen (setup.head.toVec (.new v updatedAt)) c).1 w₂
      cases hans : (w₁.swapHeadAt setup t seen (setup.head.toVec (.new v updatedAt)) c).1 with
      | error e => exact hw₂
      | ok swapped =>
          cases swapped with
          | true => exact absurd hans hfail
          | false =>
              refine bindAny (P := NoMove t) ?_ (fun _ w₃ _ hw₃ => ?_) fun _ _ _ h => h
              · unfold observedHeadVersion
                refine (bindAny (Q := fun _ => NoMove t) (E := fun _ => NoMove t)
                  (safe_readAny (fun _ _ => rfl) hstable hw₂) (fun _ w₃ _ hw₃ => ?_)
                  fun _ _ _ h => h).mono fun r w₃ _ h => by cases r <;> exact h
                refine bindCheck (fun _ _ w₄ hrely₄ hinv₄ => ?_)
                  fun _ _ w₄ hrely₄ hinv₄ => hstable w₃ w₄ hrely₄ hinv₄ hw₃
                exact pureExcept fun w₅ hrely₅ hinv₅ =>
                  hstable w₃ w₅ (hrely₄.trans hrely₅) hinv₅ hw₃
              · exact throwExcept fun w₄ hrely₄ hinv₄ => hstable w₃ w₄ hrely₄ hinv₄ hw₃
    · change Outcome _ _ (w₁.swapHeadAt setup t seen (setup.head.toVec (.new v updatedAt)) c).1 w₂
      rw [heq]
      exact pureExcept fun _ _ _ => trivial

theorem safe_publish (haws : setup.backend = .aws) {request : PublishRequest} (hcall : calls t = .publish request) (hw : NoMove t w) :
    (storeContract setup roots calls).Safe t (publish setup t request).run
      (Outcome (fun _ _ => True) fun _ => NoMove t) w := by
  unfold publish
  refine bindExcept ((safe_openPublish request hw).mono fun r w₁ _ hr => ?_)
  cases r with
  | error e => exact hr
  | ok opened =>
    obtain ⟨hw₁, hvalid, htime, hversion⟩ := hr
    refine bindExcept ((safe_openArtifacts request.manifest hw₁).mono fun r w₂ _ hr => ?_)
    cases r with
    | error e => exact hr
    | ok keys =>
      obtain ⟨hw₂, hkeys, bytes, hfile, hdecodes⟩ := hr
      have hheld : Held t [] w₂ := ⟨hw₂, fun o ho => absurd ho List.not_mem_nil⟩
      refine bindExcept ((safe_uploadDirectories haws keys hheld).mono fun r w₃ _ hr => ?_)
      cases r with
      | error e => exact hr
      | ok _ =>
        obtain ⟨objects, hheld₃, -, hhand⟩ := hr
        refine bindExcept ((safe_uploadManifest haws hcall hvalid hfile hdecodes hkeys hhand
          hheld₃).mono fun r w₄ _ hr => ?_)
        cases r with
        | error e => exact hr
        | ok _ => exact safe_activate haws _ hversion htime _ _ _ hr.1 hr.2

theorem safe_rollback (haws : setup.backend = .aws) (request : RollbackRequest) (hw : NoMove t w) :
    (storeContract setup roots calls).Safe t (rollback setup request).run
      (Outcome (fun _ _ => True) fun _ => NoMove t) w := by
  have hstable : (storeContract setup roots calls).Stable t (NoMove t) := NoMove.stable
  unfold rollback
  refine bindCheck (fun _ hversion w₁ hrely₁ hinv₁ => ?_) fun _ _ w₁ hrely₁ hinv₁ =>
    hstable w w₁ hrely₁ hinv₁ hw
  have hw₁ := hstable w w₁ hrely₁ hinv₁ hw
  refine bindCheck (fun _ htime w₂ hrely₂ hinv₂ => ?_) fun _ _ w₂ hrely₂ hinv₂ =>
    hstable w₁ w₂ hrely₂ hinv₂ hw₁
  have hw₂ := hstable w₁ w₂ hrely₂ hinv₂ hw₁
  refine bindAny (safe_readAny (fun _ _ => rfl) hstable hw₂) (fun object w₃ _ hw₃ => ?_)
    fun _ _ _ h => h
  refine bindCheck (fun head _ w₄ hrely₄ hinv₄ => ?_) fun _ _ w₄ hrely₄ hinv₄ =>
    hstable w₃ w₄ hrely₄ hinv₄ hw₃
  have hw₄ := hstable w₃ w₄ hrely₄ hinv₄ hw₃
  refine bindCheck (fun _ _ w₅ hrely₅ hinv₅ => ?_) fun _ _ w₅ hrely₅ hinv₅ =>
    hstable w₄ w₅ hrely₅ hinv₅ hw₄
  have hw₅ := hstable w₄ w₅ hrely₅ hinv₅ hw₄
  refine bindExcept (safe_read (fun _ _ => rfl) hstable hw₅ ?_)
  intro w₆ c hinv₆ hw₆ _ w₇ hrely₇ hinv₇
  have hw₇ := hstable w₆ w₇ hrely₇ hinv₇ hw₆
  change Outcome _ _ (if c.fails then Except.error (PublishError.operation c.detail) else
    .ok ((w₆.objects (versionManifestKey request.targetVersionId)).map fun cell =>
      (⟨cell.content.bytes, setup.etag cell.content.bytes⟩ : VersionedObject))) w₇
  by_cases hfails : c.fails = true
  · rw [if_pos hfails]
    exact hw₇
  rw [if_neg hfails]
  cases hcell : w₆.objects (versionManifestKey request.targetVersionId) with
  | none =>
      exact throwExcept fun w₈ hrely₈ hinv₈ => hstable w₇ w₈ hrely₈ hinv₈ hw₇
  | some cell =>
      refine bindCheck (fun _ _ w₈ hrely₈ hinv₈ => ?_) fun _ _ w₈ hrely₈ hinv₈ =>
        hstable w₇ w₈ hrely₈ hinv₈ hw₇
      have hstored := (hrely₇.trans hrely₈).1 _ _ (versionManifestKey_ne_head _) hcell
      exact safe_activate haws _ (rejectIf_eq_ok.mp hversion)
        (not_lt.mp (rejectIf_eq_ok.mp htime)) _ _ _ (hstable w₇ w₈ hrely₈ hinv₈ hw₇)
        (by rw [hstored]; rfl)

end Calls

/-! ## Every run -/

/-- The empty store meets the invariant. -/
theorem StoreInv.init : StoreInv setup roots calls (.init roots) where
  rootsFixed := rfl
  manifests _ _ h := nomatch h
  head _ h := nomatch h

/-- The calls after the storage operations of `turns`. -/
def afterCalls (setup : Setup) (roots : Nat → String → Option RootItem)
    (calls : Nat → PublisherCall) (turns : List (Nat × Choice)) :
    Config nodeSignature World Nat (Except PublishError PublishResult) :=
  run (node setup).step (publishers setup roots calls) turns

theorem safe_publishers (haws : setup.backend = .aws) (t : Nat) :
    (storeContract setup roots calls).Safe t ((publishers setup roots calls).threads t)
      (Outcome (fun _ _ => True) fun _ => NoMove t) (publishers setup roots calls).world := by
  have hnone : NoMove t (World.init roots) := fun a ha => absurd ha List.not_mem_nil
  change (storeContract setup roots calls).Safe t ((calls t).program setup t) _ (World.init roots)
  cases hcall : calls t with
  | publish request => exact safe_publish haws hcall hnone
  | rollback request => exact safe_rollback haws request hnone

/-- The invariant holds after every run that plants nothing, nothing stored is changed by what comes
later, and a call that ended with an error has not moved the head. -/
theorem publishers_run (haws : setup.backend = .aws) {turns later : List (Nat × Choice)}
    (hplants : PlantsNothing setup roots calls (turns ++ later)) :
    StoreInv setup roots calls (afterCalls setup roots calls turns).world ∧
      Frozen (afterCalls setup roots calls turns).world
        (afterCalls setup roots calls (turns ++ later)).world ∧
      ∀ t e, (afterCalls setup roots calls turns).threads t = .done (.error e) →
        NoMove t (afterCalls setup roots calls turns).world := by
  obtain ⟨hbefore, hlater⟩ := Machine.allows_append.mp hplants
  obtain ⟨hinv, -, hsafe⟩ := Contract.run_safe (K := storeContract setup roots calls)
    (c := publishers setup roots calls) StoreInv.init (safe_publishers haws) turns hbefore
  obtain ⟨-, hchange, -⟩ := Contract.run_safe hinv hsafe later hlater
  refine ⟨hinv, ?_, fun t e hdone => ?_⟩
  · unfold afterCalls
    rw [run_append]
    exact hchange
  · have hpost := Contract.post_of_done (hsafe t) hdone hinv
    exact hpost

/-- In every state of a run that plants nothing: if the head names a version, the manifest of that
version is stored, decodes, validates and carries the version, the files of all shard directories of
the publish call that stored it are there with the bytes it uploaded, and all of this is still so after
any later steps; and a call that returned an error has not moved the head. -/
theorem active_head_frozen (haws : setup.backend = .aws)
    (hhead : ManifestHead.RoundTrips setup.head) (turns later : List (Nat × Choice))
    (hplants : PlantsNothing setup roots calls (turns ++ later)) :
    (∀ v, (afterCalls setup roots calls turns).world.headVersion setup = some v →
      ∃ cell request,
        Complete setup roots calls (afterCalls setup roots calls turns).world v cell request ∧
        Complete setup roots calls (afterCalls setup roots calls (turns ++ later)).world v cell
          request) ∧
    ∀ t e, (afterCalls setup roots calls turns).threads t = .done (.error e) →
      ∀ a ∈ (afterCalls setup roots calls turns).world.history.activated, a.worker ≠ t := by
  obtain ⟨hinv, hfrozen, herror⟩ := publishers_run haws hplants
  refine ⟨fun v hv => ?_, herror⟩
  have hbytes : ∃ cell, (afterCalls setup roots calls turns).world.objects indexHeadKey =
      some cell ∧ ∃ head, ManifestHead.fromJson setup.head cell.content.bytes = .ok head ∧
        head.versionId = v := by
    unfold World.headVersion World.headBytes at hv
    simp only [haws] at hv
    obtain ⟨bytes, hb, hv⟩ := Option.bind_eq_some_iff.mp hv
    obtain ⟨cell, hcell, rfl⟩ := Option.map_eq_some_iff.mp hb
    refine ⟨cell, hcell, ?_⟩
    split at hv
    · exact ⟨_, ‹_›, Option.some.inj hv⟩
    · cases hv
  obtain ⟨cell, hcell, head, hparse, hversion⟩ := hbytes
  obtain ⟨u, updatedAt, hu, ht, hprinted, hstored⟩ := hinv.head cell hcell
  -- the head is one that a call printed, so it names the version whose manifest is stored
  rw [hprinted, ManifestHead.fromJson_new hhead hu ht] at hparse
  cases hparse
  obtain rfl : u = v := hversion
  obtain ⟨stored, hmanifest⟩ := Option.isSome_iff_exists.mp hstored
  obtain ⟨request, hcomplete⟩ := hinv.manifests u stored hmanifest
  exact ⟨stored, request, hcomplete, hcomplete.frozen hfrozen⟩

/-! ## A shard directory that holds a head -/

/-- A choice under which nothing fails. -/
def Choice.calm : Choice where
  fails := false
  detail := ""
  applied := false
  refused := false
  torn := none
  clock := ⟨1784000000000, by decide, by decide⟩
  uuid := "550e8400e29b41d4a716446655440000"
  draw := fun batchId => batchId
  lance := .empty
  tantivy := .empty
  generator := fun _ => .error ""
  sql := .none

/-- The manifest of a version with the indexes of its one shard under these paths. -/
def sampleManifest (version : UInt64) (lancePath tantivyPath : String) : IndexManifest where
  versionId := version
  createdAt := 1784000000000
  embeddingDim := 512
  documentCount := 1
  numShards := 1
  shards := [{ shardId := 0, documentCount := 1, lancePath, tantivyPath }]

theorem perm_inOrder (records : List WalRecord) : (id records).Perm records := .refl records

/-- An S3 deployment that comes across these manifests. -/
noncomputable def sampleSetup (manifests : List IndexManifest) : Setup where
  backend := .aws
  rootOf := id
  rootPath := fun _ => "/tmp/ltsearch"
  s3Etag := etagOf
  head := ManifestHead.serdeCodec
  manifest := IndexManifest.codec manifests
  wal := { toString := fun _ => "", fromStr := fun _ => .error "" }
  hash := { order := id, perm := perm_inOrder }
  source := .default

/-- The same, with the heads looked up that are written. -/
theorem sampleSetup_lookingUp (manifests : List IndexManifest) (heads : List (UInt64 × Int)) :
    sampleSetup manifests = { sampleSetup manifests with
      head := ManifestHead.serdeCodec.lookingUp (heads.map fun head => .new head.1 head.2) } := by
  rw [ManifestHead.serdeCodec_lookingUp]
  rfl

def sampleRequest (manifest : IndexManifest) (expected : Option UInt64) : PublishRequest where
  manifest := manifest
  expectedCurrentVersion := expected
  updatedAt := 1784000000000

/-- The head of a version 7 that was never published. -/
def plantedHead : ByteArray := (ManifestHead.jsonPretty (.new 7 1784000000000)).toUTF8

def plantedManifest : IndexManifest :=
  sampleManifest 1 "s3://local-artifacts/index" "s3://local-artifacts/index"

/-- A shard directory `index` with a file `_head` in it. -/
def plantingRoot (key : String) : Option RootItem :=
  if key = "index" then
    some {
      artifact := .directory ⟨[("_head", plantedHead),
        ("versions/1/manifest.json", plantedManifest.toVecPretty)], by decide⟩
      segments := []
      mover := 0 }
  else if key = "index/versions/1/manifest.json" then
    some { artifact := .file plantedManifest.toVecPretty, segments := [], mover := 0 }
  else none

/-- A publish call that hands this directory to the store. -/
noncomputable def plantingCalls (turns : List (Nat × Choice)) :
    Config nodeSignature World Nat (Except PublishError PublishResult) :=
  afterCalls (sampleSetup [plantedManifest]) (fun _ => plantingRoot)
    (fun _ => .publish (sampleRequest plantedManifest none)) turns

/-- After its ninth operation the object `index/_head` names version 7, which has no manifest. -/
theorem planted_head_names_nothing :
    (plantingCalls (List.replicate 9 (0, .calm))).world.headVersion (sampleSetup [plantedManifest]) =
        some 7 ∧
      (plantingCalls (List.replicate 9 (0, .calm))).world.objects (versionManifestKey 7) = none := by
  unfold plantingCalls
  rw [sampleSetup_lookingUp [plantedManifest] [(7, 1784000000000)]]
  decide +kernel

/-! ## Two versions and a rollback -/

/-- The manifest of a version as a builder makes it. -/
def builtManifest (version : UInt64) : IndexManifest :=
  sampleManifest version ("s3://local-artifacts/" ++ lanceShardKey version)
    ("s3://local-artifacts/" ++ tantivyShardKey version)

/-- What builders have moved into place for these versions. -/
def builtRoot (versions : List UInt64) (key : String) : Option RootItem :=
  versions.findSome? fun version =>
    if key = lanceShardKey version then
      some {
        artifact := .directory ⟨[("data.lance", (toString version).toUTF8)], List.nodup_singleton _⟩
        segments := []
        mover := 0 }
    else if key = tantivyShardKey version then
      some {
        artifact := .directory ⟨[("meta.json", "\x7b\x7d".toUTF8)], List.nodup_singleton _⟩
        segments := []
        mover := 0 }
    else if key = versionManifestKey version then
      some { artifact := .file (builtManifest version).toVecPretty, segments := [], mover := 0 }
    else none

/-- Two versions are published one after the other, and then the first one is made active again. -/
def forthAndBack : Nat → PublisherCall
  | 0 => .publish (sampleRequest (builtManifest 1) none)
  | 1 => .publish (sampleRequest (builtManifest 2) (some 1))
  | _ => .rollback {
      targetVersionId := 1
      expectedCurrentVersion := some 2
      updatedAt := 1784000000000 }

/-- The first two calls to their ends. -/
def published : List (Nat × Choice) := List.replicate 14 (0, .calm) ++ List.replicate 14 (1, .calm)

/-- The rollback. -/
def rolledBack : List (Nat × Choice) := List.replicate 3 (2, .calm)

noncomputable def builtSetup : Setup := sampleSetup [builtManifest 1, builtManifest 2]

noncomputable def builtCalls (turns : List (Nat × Choice)) :
    Config nodeSignature World Nat (Except PublishError PublishResult) :=
  afterCalls builtSetup (fun _ => builtRoot [1, 2]) forthAndBack turns

/-- What the step uploads from a directory. -/
def directoryUpload : Op → Option String
  | .putObject .directory key _ => some key
  | _ => none

/-- A key below the directories of a version is neither that of the head nor that of a manifest. -/
def BelowShard (key : String) : Prop := ∃ part ∈ keyPart key.toList, part.1 ≠ .manifest

instance (key : String) : Decidable (BelowShard key) :=
  inferInstanceAs (Decidable (∃ part ∈ keyPart key.toList, part.1 ≠ .manifest))

theorem not_plants_of_belowShard {op : Op} (h : ∀ key ∈ directoryUpload op, BelowShard key) (t : Nat)
    (c : Choice) (w : World) : ¬Plants t op c w := by
  rintro ⟨key, content, rfl, hkey, -⟩
  obtain ⟨part, hpart, hmanifest⟩ := h key rfl
  rcases hkey with rfl | ⟨v, rfl⟩
  · have hhead : keyPart indexHeadKey.toList = none := by decide +kernel
    rw [hhead] at hpart
    cases hpart
  · have hversion : keyPart (versionManifestKey v).toList = some (.manifest, digits v) := keyOf_manifest v
    rw [hversion] at hpart
    cases hpart
    exact hmanifest rfl

/-- Where the head stands after the publish calls and after the rollback, and what is uploaded. -/
theorem builtCalls_run :
    (builtCalls published).world.headVersion builtSetup = some 2 ∧
      (builtCalls (published ++ rolledBack)).world.headVersion builtSetup = some 1 ∧
      ∀ op ∈ (node builtSetup).asked (publishers builtSetup (fun _ => builtRoot [1, 2]) forthAndBack)
        (published ++ rolledBack), ∀ key ∈ directoryUpload op, BelowShard key := by
  unfold builtCalls builtSetup
  rw [sampleSetup_lookingUp _ [(1, 1784000000000), (2, 1784000000000)]]
  decide +kernel

theorem active_head_frozen_forthAndBack :
    (builtCalls published).world.headVersion builtSetup = some 2 ∧
      (builtCalls (published ++ rolledBack)).world.headVersion builtSetup = some 1 ∧
      (∀ v, (builtCalls published).world.headVersion builtSetup = some v → ∃ cell request,
        Complete builtSetup (fun _ => builtRoot [1, 2]) forthAndBack (builtCalls published).world v cell
          request ∧
        Complete builtSetup (fun _ => builtRoot [1, 2]) forthAndBack
          (builtCalls (published ++ rolledBack)).world v cell request) ∧
      ∀ t e, (builtCalls published).threads t = .done (.error e) →
        ∀ a ∈ (builtCalls published).world.history.activated, a.worker ≠ t := by
  obtain ⟨hpublished, hback, huploads⟩ := builtCalls_run
  have hplants : PlantsNothing builtSetup (fun _ => builtRoot [1, 2]) forthAndBack
      (published ++ rolledBack) :=
    Machine.allows_of_asked (fun t _ c w hop => not_plants_of_belowShard hop t c w) huploads
  have haws : builtSetup.backend = .aws := rfl
  have hhead : ManifestHead.RoundTrips builtSetup.head := ManifestHead.serdeCodec_roundTrips
  unfold builtCalls at hpublished hback ⊢
  exact ⟨hpublished, hback, active_head_frozen haws hhead published rolledBack hplants⟩

end LTSearch
