/-
# LTSearch.Indexing.BuildPublish -- one build and its publication, among others

A build that succeeds leaves its manifest in the artifact root, with the segments it replayed, and
nobody else can replace it.

The lance directory of a version is its lock.  It is moved to where nothing is, so at most one builder
has it, and only the one who has it moves the manifest of the version; on the way back after a failure
the lock is given up only while the manifest is not there.  From this the invariant gets that a manifest
in the root stays, which the publication (`BuildActivate`) relies on.  What is in the directories is of
no matter here: a move of a whole directory is one step, and its files are followed in
`ConcurrentBuilds`.
-/
import LTSearch.Indexing.BuildContract

namespace LTSearch

open LTSearch.Foundation Contract.Safe

variable {setup : Setup} {env : WorkerEnv} {t : Nat} {w w' : Annals}

/-! ## Changes of the artifact root -/

/-- One entry of the artifact root was written or removed. -/
structure PutEntry (setup : Setup) (key : String) (item : Option RootItem) (w w' : Annals) : Prop where
  entry : ∀ k, w'.entry setup k = if k = key then item else w.entry setup k
  objects : w'.world.objects = w.world.objects
  queue : w'.world.queue = w.world.queue
  allocation : w'.allocation = w.allocation
  snapshots : w'.snapshots = w.snapshots

namespace PutEntry

variable {key : String} {item : Option RootItem}

theorem entry_self (h : PutEntry setup key item w w') : w'.entry setup key = item := by
  rw [h.entry, if_pos rfl]

theorem entry_of_ne (h : PutEntry setup key item w w') {k : String} (hk : k ≠ key) :
    w'.entry setup k = w.entry setup k := by
  rw [h.entry, if_neg hk]

theorem owned_of_ne (h : PutEntry setup key item w w') {k : String} (hk : k ≠ key)
    (howned : w.OwnedBy setup t k) : w'.OwnedBy setup t k := by
  obtain ⟨found, hfound, hmover⟩ := howned
  exact ⟨found, (h.entry_of_ne hk).trans hfound, hmover⟩

theorem grows (h : PutEntry setup key item w w') : Grows w w' where
  snapshots := h.snapshots ▸ List.prefix_refl _
  opened := by
    show w.world.queue.ledger.opened <+: w'.world.queue.ledger.opened
    rw [h.queue]
  enqueued := by
    show w.world.queue.ledger.enqueued <:+ w'.world.queue.ledger.enqueued
    rw [h.queue]
  stored v cell hcell := ⟨cell, h.objects ▸ hcell, rfl⟩

/-- Somebody may write and remove what is his. -/
theorem spares (h : PutEntry setup key item w w') (hold : ∀ old, w.entry setup key = some old → old.mover = t)
    (hnew : ∀ new, item = some new → new.mover = t) {t' : Nat} (hne : t' ≠ t) : Spares setup t' w w' where
  entries k found hmover := by
    by_cases hk : k = key
    · subst hk
      rw [h.entry_self]
      constructor
      · exact fun hfound => absurd (hmover.symm.trans (hold found hfound)) hne
      · exact fun hfound => absurd (hmover.symm.trans (hnew found hfound)) hne
    · rw [h.entry_of_ne hk]
  allocation := by rw [h.allocation]

/-- Such a change keeps the contract, if it leaves the locks and the moved manifests in order. -/
theorem keeps (hdeployed : LocalDeployment setup) (hinv : BuildInv setup env w)
    (h : PutEntry setup key item w w') (hold : ∀ old, w.entry setup key = some old → old.mover = t)
    (hnew : ∀ new, item = some new → new.mover = t)
    (hlock : ∀ v, key = lanceShardKey v → w.entry setup (versionManifestKey v) = none)
    (hmanifest : ∀ v, key = versionManifestKey v →
      w.entry setup key = none ∧ w.OwnedBy setup t (lanceShardKey v)) :
    (buildContract setup env).Keeps t w w' := by
  refine ⟨?_, h.grows, fun t' hne => h.spares hold hnew hne⟩
  apply inv_of_files hdeployed hinv h.grows h.queue h.snapshots
  · intro v found hfound
    by_cases hv : versionManifestKey v = key
    · -- the manifest that was moved: its mover holds the lock
      obtain ⟨-, howned⟩ := hmanifest v hv.symm
      rw [h.entry, if_pos hv] at hfound
      rw [hnew found hfound]
      refine h.owned_of_ne ?_ howned
      exact hv ▸ (keyOf_lance v).ne (keyOf_manifest v) (.inl (by decide))
    · rw [h.entry_of_ne hv] at hfound
      refine h.owned_of_ne ?_ (hinv.locked v found hfound)
      intro hkey
      rw [hlock v hkey.symm] at hfound
      cases hfound
  · intro v cell hcell
    rw [h.objects] at hcell
    -- a stored manifest is in the root, so it is not what was changed
    obtain ⟨found, hfound, hsegments⟩ := hinv.stored v cell hcell
    have hv : versionManifestKey v ≠ key := by
      intro hv
      rw [hv, (hmanifest v hv.symm).1] at hfound
      cases hfound
    exact ⟨found, (h.entry_of_ne hv).trans hfound, hsegments⟩

end PutEntry


section Steps

variable (hdeployed : LocalDeployment setup)

include hdeployed

theorem entry_putRoot {key : String} {item : Option RootItem} (w : World) (k : String) :
    (w.putRoot (setup.rootOf t) key item).roots (setup.rootOf 0) k =
      if k = key then item else w.roots (setup.rootOf 0) k := by
  unfold World.putRoot
  rw [hdeployed.root t]
  by_cases hk : k = key
  · subst hk
    simp
  · simp [hk]

/-- A move: nothing has happened, or the entry is there, and a directory was moved to where nothing
was. -/
theorem apply_moveIntoPlace (key : String) (artifact : Artifact) (segments : List String) (c : Choice)
    (w : Annals) :
    (∃ e w', (annalist setup).apply t (.moveIntoPlace key artifact segments) c w = (.error e, w') ∧
        SameBooks w w') ∨
      ∃ w', (annalist setup).apply t (.moveIntoPlace key artifact segments) c w = (.ok (), w') ∧
        PutEntry setup key (some { artifact, segments, mover := t }) w w' ∧
        ∀ tree, artifact = .directory tree → w.entry setup key = none := by
  have hput : ∀ w₁ : World, w₁ = w.world.putRoot (setup.rootOf t) key
        (some { artifact, segments, mover := t }) →
      PutEntry setup key (some { artifact, segments, mover := t }) w
        { w with world := World.noteActivation setup t w₁ w.world } := by
    rintro w₁ rfl
    refine ⟨fun k => ?_, ?_, ?_, rfl, rfl⟩
    · show (World.noteActivation setup t _ w.world).roots (setup.rootOf 0) k = _
      rw [World.roots_noteActivation]
      exact entry_putRoot hdeployed w.world k
    · exact World.objects_noteActivation
    · exact World.queue_noteActivation
  have hsame : ∀ w₁ : World, w₁ = w.world ∨ w₁ = w.world.block t →
      SameBooks w { w with world := World.noteActivation setup t w₁ w.world } := by
    intro w₁ hw₁
    refine ⟨fun v => ?_, ?_, ?_, rfl, rfl⟩
    · show (World.noteActivation setup t w₁ w.world).objects _ = _
      rw [World.objects_noteActivation]
      rcases hw₁ with rfl | rfl <;> rfl
    · show (World.noteActivation setup t w₁ w.world).roots = _
      rw [World.roots_noteActivation]
      rcases hw₁ with rfl | rfl <;> rfl
    · show (World.noteActivation setup t w₁ w.world).queue = _
      rw [World.queue_noteActivation]
      rcases hw₁ with rfl | rfl <;> rfl
  have happly : (annalist setup).apply t (.moveIntoPlace key artifact segments) c w =
      ((w.world.moveAt setup t key artifact segments c).1, { w with
        world := World.noteActivation setup t (w.world.moveAt setup t key artifact segments c).2 w.world }) := rfl
  rw [happly]
  have hentry : w.entry setup key = w.world.roots (setup.rootOf t) key := by
    rw [hdeployed.root t]
    rfl
  unfold World.moveAt
  -- a fault comes first; then it depends on what is at the destination
  by_cases hfails : c.fails = true
  · left
    simp only [if_pos hfails]
    exact ⟨_, _, rfl, hsame _ (.inl rfl)⟩
  · simp only [if_neg hfails]
    split
    · -- nothing there
      rename_i hnone
      right
      exact ⟨_, rfl, hput _ rfl, fun tree _ => hentry.trans hnone⟩
    · -- a file over a file
      right
      exact ⟨_, rfl, hput _ rfl, fun tree htree => by cases htree⟩
    · -- something is in the way, which is noted
      left
      exact ⟨_, _, rfl, hsame _ (.inr rfl)⟩

/-- A removal: nothing has happened, or the entry is gone. -/
theorem apply_removePath (key : String) (c : Choice) (w : Annals) :
    SameBooks w ((annalist setup).apply t (.removePath key) c w).2 ∨
      PutEntry setup key none w ((annalist setup).apply t (.removePath key) c w).2 := by
  by_cases hfails : c.fails = true
  · left
    have hworld : ((annalist setup).apply t (.removePath key) c w).2 = { w with world := w.world } := by
      show ({ w with world := World.noteActivation setup t (w.world.perform setup t (.removePath key) c).2 w.world } :
        Annals) = _
      simp only [World.perform, if_pos hfails, World.noteActivation_self]
    rw [hworld]
    exact ⟨fun _ => rfl, rfl, rfl, rfl, rfl⟩
  · right
    have hworld : ((annalist setup).apply t (.removePath key) c w).2 = { w with
        world := World.noteActivation setup t (w.world.putRoot (setup.rootOf t) key none) w.world } := by
      show ({ w with world := World.noteActivation setup t (w.world.perform setup t (.removePath key) c).2 w.world } :
        Annals) = _
      simp only [World.perform, if_neg hfails]
    rw [hworld]
    refine ⟨fun k => ?_, World.objects_noteActivation, World.queue_noteActivation, rfl, rfl⟩
    show (World.noteActivation setup t _ w.world).roots (setup.rootOf 0) k = _
    rw [World.roots_noteActivation]
    exact entry_putRoot hdeployed w.world k

end Steps

/-! ## The builder -/

theorem owned_stable (key : String) : (buildContract setup env).Stable t (Annals.OwnedBy setup t key) :=
  fun _ _ hrely _ h => (hrely.2.owned_iff key).mp h

/-- A version whose lance directory `t` has moved, and whose manifest is still to come. -/
structure Locked (setup : Setup) (t : Nat) (v : UInt64) (w : Annals) : Prop where
  owned : w.OwnedBy setup t (lanceShardKey v)
  free : w.entry setup (versionManifestKey v) = none

/-- Nobody else can move a manifest for it. -/
theorem Locked.stable (v : UInt64) : (buildContract setup env).Stable t (Locked setup t v) := by
  intro w w' hrely hinv h
  have howned := owned_stable (lanceShardKey v) w w' hrely hinv h.owned
  refine ⟨howned, ?_⟩
  cases hentry : w'.entry setup (versionManifestKey v) with
  | none => rfl
  | some item =>
      -- the mover of such a manifest has the lock, so it is `t` itself, who has not moved it
      obtain ⟨l, hl, hmover⟩ := hinv.locked v item hentry
      obtain ⟨l', hl', hmover'⟩ := howned
      obtain rfl : l = l' := Option.some.inj (hl.symm.trans hl')
      have hbefore := (hrely.2.entries _ item (hmover.symm.trans hmover')).mpr hentry
      cases h.free.symm.trans hbefore

/-- What `t` may take back: he has moved it, it is no manifest, and where it is a lock, the manifest is
not there. -/
structure Removable (setup : Setup) (t : Nat) (moved : List String) (w : Annals) : Prop where
  owned : ∀ key ∈ moved, w.OwnedBy setup t key
  noManifest : ∀ key ∈ moved, ∀ v, key ≠ versionManifestKey v
  free : ∀ v, lanceShardKey v ∈ moved → w.entry setup (versionManifestKey v) = none

theorem Removable.stable (moved : List String) :
    (buildContract setup env).Stable t (Removable setup t moved) := by
  intro w w' hrely hinv h
  refine ⟨fun key hkey => owned_stable key w w' hrely hinv (h.owned key hkey), h.noManifest, fun v hv => ?_⟩
  have hlocked : Locked setup t v w := ⟨h.owned _ hv, h.free v hv⟩
  exact (Locked.stable v w w' hrely hinv hlocked).free

theorem Removable.nil : Removable setup t [] w :=
  ⟨fun _ h => absurd h List.not_mem_nil, fun _ h => absurd h List.not_mem_nil,
    fun _ h => absurd h List.not_mem_nil⟩

/-- One removal keeps the contract, and the rest may still be removed. -/
theorem Removable.step (hdeployed : LocalDeployment setup) {key : String} {rest : List String}
    (hnodup : (key :: rest).Nodup) (hinv : BuildInv setup env w) (h : Removable setup t (key :: rest) w)
    (c : Choice) :
    (buildContract setup env).Keeps t w ((annalist setup).apply t (.removePath key) c w).2 ∧
      Removable setup t rest ((annalist setup).apply t (.removePath key) c w).2 := by
  have hrest : Removable setup t rest w :=
    ⟨fun k hk => h.owned k (List.mem_cons_of_mem _ hk), fun k hk => h.noManifest k (List.mem_cons_of_mem _ hk),
      fun v hv => h.free v (List.mem_cons_of_mem _ hv)⟩
  rcases apply_removePath hdeployed (t := t) key c w with hsame | hput
  · have hkeeps : (buildContract setup env).Keeps t w ((annalist setup).apply t (.removePath key) c w).2 :=
      hsame.keeps hdeployed hinv
    exact ⟨hkeeps, Removable.stable rest _ _ hsame.rely hkeeps.inv hrest⟩
  · -- the entry is gone: it was its own, and no manifest depends on it
    obtain ⟨item, hitem, hmover⟩ := h.owned key List.mem_cons_self
    constructor
    · apply hput.keeps hdeployed hinv
      · intro old hold
        obtain rfl : item = old := Option.some.inj (hitem.symm.trans hold)
        exact hmover
      · exact fun _ hnew => by cases hnew
      · exact fun v hv => h.free v (hv ▸ List.mem_cons_self)
      · exact fun v hv => absurd hv (h.noManifest key List.mem_cons_self v)
    · refine ⟨fun k hk => ?_, hrest.noManifest, fun v hv => ?_⟩
      · have hne : k ≠ key := fun e => (List.nodup_cons.mp hnodup).1 (e ▸ hk)
        exact hput.owned_of_ne hne (hrest.owned k hk)
      · rw [hput.entry_of_ne (h.noManifest key List.mem_cons_self v).symm]
        exact hrest.free v hv

section Builder

variable (hdeployed : LocalDeployment setup)

include hdeployed

theorem safe_removeMoved {moved : List String} (hnodup : moved.Nodup) (hw : Removable setup t moved w) :
    (buildContract setup env).Safe t (removeMoved moved) (fun _ _ => True) w := by
  induction moved generalizing w with
  | nil => exact fun _ _ _ => trivial
  | cons key rest ih =>
      -- one removal, and then the others
      apply Contract.Safe.call (Removable.stable _) hw
      intro w₁ c hinv hw₁ _
      obtain ⟨hkeeps, hrest⟩ := hw₁.step hdeployed hnodup hinv c
      refine ⟨hkeeps, ?_⟩
      show (buildContract setup env).Safe t (removeMoved rest >>= fun _ => _) _ _
      apply Contract.Safe.bind
      refine (ih (List.nodup_cons.mp hnodup).2 hrest).mono fun _ _ _ _ => ?_
      exact fun _ _ _ => trivial

/-- After a failed move what was moved is taken back, and the build fails. -/
theorem safe_rollBackBuild {moved : List String} (hnodup : moved.Nodup) (error : IndexError)
    (hw : Removable setup t moved w) :
    (buildContract setup env).Safe t (rollBackBuild moved error)
      (fun result _ => ∃ e, result = .error e) w := by
  apply Contract.Safe.bind
  refine (safe_removeMoved hdeployed hnodup hw).mono fun cleanups w₁ hinv₁ _ => ?_
  apply Contract.Safe.bind
  have hquiet : (call .removeStaging).Within Quiet := Prog.within_ask trivial
  have hstable : (buildContract setup env).Stable t fun _ => True := fun _ _ _ _ _ => trivial
  refine (safe_quiet hdeployed hquiet hstable trivial).mono fun last w₂ _ _ => ?_
  exact fun _ _ _ => ⟨_, rfl⟩

omit hdeployed in
/-- The manifest that `t` has moved for a version, with the segments its build replayed. -/
def BuiltVersion (setup : Setup) (t : Nat) (v : UInt64) (segments : List String) (w : Annals) : Prop :=
  ∃ item, w.entry setup (versionManifestKey v) = some item ∧ item.mover = t ∧ item.segments = segments

omit hdeployed in
theorem BuiltVersion.stable (v : UInt64) (segments : List String) :
    (buildContract setup env).Stable t (BuiltVersion setup t v segments) := by
  rintro w w' hrely _ ⟨item, hitem, hmover, hsegments⟩
  exact ⟨item, (hrely.2.entries _ item hmover).mp hitem, hmover, hsegments⟩

variable {v : UInt64} {segments : List String} {trees : Tree × Tree} {item : RootItem}

/-- The lock is taken where nobody holds it. -/
theorem keeps_lock (hinv : BuildInv setup env w) (hnone : w.entry setup (lanceShardKey v) = none)
    (hmover : item.mover = t) (hput : PutEntry setup (lanceShardKey v) (some item) w w') :
    (buildContract setup env).Keeps t w w' ∧ Locked setup t v w' := by
  -- a manifest without a lock would break the invariant
  have hfree : w.entry setup (versionManifestKey v) = none := by
    cases hentry : w.entry setup (versionManifestKey v) with
    | none => rfl
    | some found =>
        obtain ⟨l, hl, -⟩ := hinv.locked v found hentry
        cases hnone.symm.trans hl
  have hne : ∀ u u', lanceShardKey u ≠ versionManifestKey u' := fun u u' =>
    (keyOf_lance u).ne (keyOf_manifest u') (.inl (by decide))
  constructor
  · apply hput.keeps hdeployed hinv
    · exact fun old hold => by cases hnone.symm.trans hold
    · exact fun new hnew => Option.some.inj hnew ▸ hmover
    · intro u hu
      obtain ⟨-, rfl⟩ := (keyOf_lance v).unique (hu ▸ keyOf_lance u)
      exact hfree
    · exact fun u hu => absurd hu (hne v u)
  · exact ⟨⟨item, hput.entry_self, hmover⟩, (hput.entry_of_ne (hne v v).symm).trans hfree⟩

/-- The keyword index is moved next. -/
theorem keeps_tantivy (hinv : BuildInv setup env w) (hlocked : Locked setup t v w)
    (hnone : w.entry setup (tantivyShardKey v) = none) (hmover : item.mover = t)
    (hput : PutEntry setup (tantivyShardKey v) (some item) w w') :
    (buildContract setup env).Keeps t w w' ∧ Locked setup t v w' ∧ w'.OwnedBy setup t (tantivyShardKey v) := by
  have hlance : ∀ u u', tantivyShardKey u ≠ lanceShardKey u' := fun u u' =>
    (keyOf_tantivy u).ne (keyOf_lance u') (.inl (by decide))
  have hmanifest : ∀ u u', tantivyShardKey u ≠ versionManifestKey u' := fun u u' =>
    (keyOf_tantivy u).ne (keyOf_manifest u') (.inl (by decide))
  constructor
  · apply hput.keeps hdeployed hinv
    · exact fun old hold => by cases hnone.symm.trans hold
    · exact fun new hnew => Option.some.inj hnew ▸ hmover
    · exact fun u hu => absurd hu (hlance v u)
    · exact fun u hu => absurd hu (hmanifest v u)
  · refine ⟨⟨hput.owned_of_ne (hlance v v).symm hlocked.owned, ?_⟩, item, hput.entry_self, hmover⟩
    exact (hput.entry_of_ne (hmanifest v v).symm).trans hlocked.free

/-- And then the manifest, under the lock. -/
theorem keeps_manifest (hinv : BuildInv setup env w) (hlocked : Locked setup t v w) (hmover : item.mover = t)
    (hput : PutEntry setup (versionManifestKey v) (some item) w w') :
    (buildContract setup env).Keeps t w w' ∧ BuiltVersion setup t v item.segments w' := by
  constructor
  · apply hput.keeps hdeployed hinv
    · exact fun old hold => by cases hlocked.free.symm.trans hold
    · exact fun new hnew => Option.some.inj hnew ▸ hmover
    · intro u hu
      exact absurd hu.symm ((keyOf_lance u).ne (keyOf_manifest v) (.inl (by decide)))
    · intro u hu
      obtain rfl := versionManifestKey_inj.mp hu
      exact ⟨hlocked.free, hlocked.owned⟩
  · exact ⟨item, hput.entry_self, hmover, rfl⟩

/-- What a commit ends with: an error, or the manifest in its place. -/
abbrev Committed (setup : Setup) (t : Nat) (v : UInt64) (segments : List String)
    (result : Except IndexError Unit) (w : Annals) : Prop :=
  result = .ok () → BuiltVersion setup t v segments w

theorem safe_publishStagedBuild (manifest : IndexManifest) :
    (buildContract setup env).Safe t (publishStagedBuild setup v manifest segments trees)
      (Committed setup t v segments) w := by
  -- a move that fails is rolled back, and then the commit has failed
  have hfailed : ∀ {moved : List String} (e : IndexError) {w₁ : Annals}, moved.Nodup →
      Removable setup t moved w₁ → (buildContract setup env).Safe t (rollBackBuild moved e)
        (Committed setup t v segments) w₁ := by
    intro moved e w₁ hnodup hw₁
    refine (safe_rollBackBuild hdeployed hnodup e hw₁).mono ?_
    rintro result w₂ _ ⟨e', rfl⟩ hok
    cases hok
  have hdistinct : lanceShardKey v ≠ tantivyShardKey v :=
    (keyOf_lance v).ne (keyOf_tantivy v) (.inl (by decide))
  have hstart : (buildContract setup env).Stable t fun _ => True := fun _ _ _ _ _ => trivial
  -- the lance directory, which is the lock
  refine Contract.Safe.call hstart trivial fun w₁ c₁ hinv₁ _ _ => ?_
  rcases apply_moveIntoPlace hdeployed (t := t) (lanceShardKey v) (.directory trees.1) segments c₁ w₁ with
    ⟨e, w₁', happly, hsame⟩ | ⟨w₁', happly, hput, hnone⟩
  · rw [happly]
    exact ⟨hsame.keeps hdeployed hinv₁, hfailed e List.nodup_nil .nil⟩
  rw [happly]
  obtain ⟨hkeeps₁, hlocked₁⟩ := keeps_lock hdeployed hinv₁ (hnone _ rfl) rfl hput
  refine ⟨hkeeps₁, ?_⟩
  -- the keyword index
  refine Contract.Safe.call (Locked.stable v) hlocked₁ fun w₂ c₂ hinv₂ hlocked₂ _ => ?_
  have hremovable₂ : Removable setup t [lanceShardKey v] w₂ := by
    refine ⟨fun key hkey => ?_, fun key hkey u => ?_, fun u hu => ?_⟩
    · obtain rfl := List.mem_singleton.mp hkey
      exact hlocked₂.owned
    · obtain rfl := List.mem_singleton.mp hkey
      exact (keyOf_lance v).ne (keyOf_manifest u) (.inl (by decide))
    · obtain ⟨-, rfl⟩ := (keyOf_lance u).unique (List.mem_singleton.mp hu ▸ keyOf_lance v)
      exact hlocked₂.free
  rcases apply_moveIntoPlace hdeployed (t := t) (tantivyShardKey v) (.directory trees.2) segments c₂ w₂ with
    ⟨e, w₂', happly₂, hsame⟩ | ⟨w₂', happly₂, hput₂, hnone₂⟩
  · rw [happly₂]
    have hkeeps : (buildContract setup env).Keeps t w₂ w₂' := hsame.keeps hdeployed hinv₂
    exact ⟨hkeeps, hfailed e (List.nodup_singleton _)
      (Removable.stable _ _ _ hsame.rely hkeeps.inv hremovable₂)⟩
  rw [happly₂]
  obtain ⟨hkeeps₂, hlocked₂', howned₂⟩ := keeps_tantivy hdeployed hinv₂ hlocked₂ (hnone₂ _ rfl) rfl hput₂
  refine ⟨hkeeps₂, ?_⟩
  -- the manifest
  have hboth : (buildContract setup env).Stable t fun w =>
      Locked setup t v w ∧ w.OwnedBy setup t (tantivyShardKey v) := fun w w' hrely hinv h =>
    ⟨Locked.stable v w w' hrely hinv h.1, owned_stable _ w w' hrely hinv h.2⟩
  refine Contract.Safe.call hboth ⟨hlocked₂', howned₂⟩ ?_
  rintro w₃ c₃ hinv₃ ⟨hlocked₃, howned₃⟩ _
  have hremovable₃ : Removable setup t [lanceShardKey v, tantivyShardKey v] w₃ := by
    refine ⟨fun key hkey => ?_, fun key hkey u => ?_, fun u hu => ?_⟩
    · rcases List.mem_pair.mp hkey with rfl | rfl
      · exact hlocked₃.owned
      · exact howned₃
    · rcases List.mem_pair.mp hkey with rfl | rfl
      · exact (keyOf_lance v).ne (keyOf_manifest u) (.inl (by decide))
      · exact (keyOf_tantivy v).ne (keyOf_manifest u) (.inl (by decide))
    · rcases List.mem_pair.mp hu with hu | hu
      · obtain ⟨-, rfl⟩ := (keyOf_lance u).unique (hu ▸ keyOf_lance v)
        exact hlocked₃.free
      · exact absurd hu ((keyOf_lance u).ne (keyOf_tantivy v) (.inl (by decide)))
  rcases apply_moveIntoPlace hdeployed (t := t) (versionManifestKey v)
      (.file (setup.manifest.toVec manifest)) segments c₃ w₃ with
    ⟨e, w₃', happly₃, hsame⟩ | ⟨w₃', happly₃, hput₃, -⟩
  · rw [happly₃]
    have hkeeps : (buildContract setup env).Keeps t w₃ w₃' := hsame.keeps hdeployed hinv₃
    exact ⟨hkeeps, hfailed e (by simp [hdistinct]) (Removable.stable _ _ _ hsame.rely hkeeps.inv hremovable₃)⟩
  rw [happly₃]
  obtain ⟨hkeeps₃, hbuilt⟩ := keeps_manifest hdeployed hinv₃ hlocked₃ rfl hput₃
  refine ⟨hkeeps₃, ?_⟩
  -- what is left is the staging directory
  have hquiet : (call .removeStaging).Within Quiet := Prog.within_ask trivial
  exact (safe_quiet hdeployed hquiet (BuiltVersion.stable v segments) hbuilt).mono fun _ _ _ h _ => h

end Builder

/-! ## A whole build -/

/-- What the manifest of a build says of the places of its files. -/
structure ManifestFor (v : UInt64) (manifest : IndexManifest) : Prop where
  version : manifest.versionId = v
  shards : ∃ shard, manifest.shards = [shard] ∧
    (∀ key, s3Key shard.lancePath = .ok key → key = lanceShardKey v) ∧
      ∀ key, s3Key shard.tantivyPath = .ok key → key = tantivyShardKey v

/-- What follows the bucket is the key. -/
theorem s3Key_artifact {key found : String} (h : s3Key ("s3://" ++ artifactBucket ++ "/" ++ key) = .ok found) :
    found = key := by
  have htext : ("s3://" ++ artifactBucket ++ "/" ++ key).toList = "s3://local-artifacts/".toList ++ key.toList := by
    rw [String.toList_append]
    rfl
  have hsplit : (stripPrefix "s3://".toList ("s3://local-artifacts/".toList ++ key.toList)).bind (splitOnce '/') =
      some ("local-artifacts".toList, key.toList) := rfl
  unfold s3Key at h
  rw [htext, hsplit] at h
  cases hkey : key.toList with
  | nil =>
      rw [hkey] at h
      cases h
  | cons c cs =>
      rw [hkey] at h
      obtain ⟨-, hfound⟩ := check_bind_eq_ok.mp h
      cases hfound
      rw [← hkey, String.ofList_toList]

theorem manifestFor_of_prepareBuild {hash : HashOrder} {generator : EmbeddingGenerator}
    {request : BuildIndexRequest} {documents : List Document} {manifest : IndexManifest}
    (h : prepareBuild hash generator request = .ok (documents, manifest)) :
    ManifestFor request.versionId manifest := by
  obtain ⟨-, h⟩ := check_bind_eq_ok.mp h
  obtain ⟨snapshot, -, h⟩ := bind_eq_ok.mp h
  obtain ⟨embedded, -, h⟩ := bind_eq_ok.mp h
  obtain ⟨built, hbuilt, h⟩ := bind_eq_ok.mp h
  cases h
  obtain ⟨-, hmanifest⟩ := check_bind_eq_ok.mp hbuilt
  cases hmanifest
  -- the paths in the manifest are the keys, behind the name of the bucket
  refine ⟨rfl, _, rfl, fun key hkey => ?_, fun key hkey => ?_⟩
  · apply s3Key_artifact
    have hpath : "s3://" ++ artifactBucket ++ "/lance/v" ++ toString request.versionId ++ "/shard_0" =
        "s3://" ++ artifactBucket ++ "/" ++ lanceShardKey request.versionId := by
      unfold lanceShardKey
      rw [show "/lance/v" = "/" ++ "lance/v" from rfl]
      simp only [String.append_assoc]
    rw [← hpath]
    exact hkey
  · apply s3Key_artifact
    have hpath : "s3://" ++ artifactBucket ++ "/index/v" ++ toString request.versionId ++ "/shard_0" =
        "s3://" ++ artifactBucket ++ "/" ++ tantivyShardKey request.versionId := by
      unfold tantivyShardKey
      rw [show "/index/v" = "/" ++ "index/v" from rfl]
      simp only [String.append_assoc]
    rw [← hpath]
    exact hkey

theorem ensureTargetIsPublishable_quiet (key : String) :
    (ensureTargetIsPublishable setup t key).run.Within Quiet := by
  refine ⟨trivial, fun probe => ?_⟩
  obtain ⟨pathExists, parentIsFile⟩ := probe
  cases pathExists <;> cases parentIsFile <;> trivial

theorem stageBuild_quiet (v : UInt64) (documents : List Document) (manifest : IndexManifest) :
    (stageBuild setup t v documents manifest).run.Within Quiet := by
  have hwrite : (writeStagedBuild setup t v documents manifest).run.Within Quiet := by
    unfold writeStagedBuild
    -- three probes, and the files go to the staging directory
    apply Prog.Within.bindExcept (ensureTargetIsPublishable_quiet _)
    intro _
    apply Prog.Within.bindExcept (ensureTargetIsPublishable_quiet _)
    intro _
    apply Prog.Within.bindExcept (ensureTargetIsPublishable_quiet _)
    intro _
    apply Prog.Within.bindExcept (Prog.within_ask trivial)
    intro trees
    apply Prog.Within.bindExcept (Prog.within_ask trivial)
    exact fun _ => trivial
  unfold stageBuild
  apply Prog.Within.bindExcept (Prog.within_ask trivial)
  intro _
  apply Prog.Within.bind hwrite
  intro result
  cases result with
  | ok trees => trivial
  | error e => exact ⟨trivial, fun _ => trivial⟩

theorem readWalRecords_quiet (walKeys : List String) : (readWalRecords walKeys).run.Within Quiet := by
  induction walKeys with
  | nil => trivial
  | cons walKey rest ih =>
      unfold readWalRecords
      apply Prog.Within.bindExcept (within_mapError (Prog.within_ask trivial))
      intro segment
      apply Prog.Within.bindExcept ih
      exact fun _ => trivial

section Build

variable (hdeployed : LocalDeployment setup)

include hdeployed

theorem safe_buildIndex (generator : EmbeddingGenerator) (request : BuildIndexRequest)
    (segments : List String) :
    (buildContract setup env).Safe t (buildIndex setup t generator request segments).run
      (Outcome (fun result w' => BuiltVersion setup t request.versionId segments w' ∧
        ManifestFor request.versionId result.manifest) fun _ _ => True) w := by
  have hstable : (buildContract setup env).Stable t fun _ => True := fun _ _ _ _ _ => trivial
  unfold buildIndex
  refine bindCheck (fun prepared hprepared w₁ _ _ => ?_) fun _ _ _ _ _ => trivial
  have hmanifest := manifestFor_of_prepareBuild hprepared
  -- staging leaves the root alone, so that only the commit counts
  refine bindAny (safe_quiet hdeployed (stageBuild_quiet _ _ _) hstable trivial) (fun trees w₂ _ _ => ?_)
    fun _ _ _ _ => trivial
  have hpublish : (buildContract setup env).Safe t
      (publishStagedBuild setup request.versionId prepared.2 segments trees)
      (Committed setup t request.versionId segments) w₂ := safe_publishStagedBuild hdeployed prepared.2
  refine bindExcept (hpublish.mono fun result w₃ _ hcommitted => ?_)
  cases result with
  | error e => trivial
  | ok _ =>
      refine pureExcept fun w₄ hrely₄ hinv₄ => ⟨?_, hmanifest⟩
      exact BuiltVersion.stable _ _ w₃ w₄ hrely₄ hinv₄ (hcommitted rfl)

/-- A build that succeeds leaves its manifest in place, with the segments it was asked to replay. -/
theorem safe_localBuild (request : SnapshotBuildRequest) :
    (buildContract setup env).Safe t (localBuild setup t request).run
      (Outcome (fun result w' => BuiltVersion setup t request.versionId request.walKeys w' ∧
        ManifestFor request.versionId result.manifest) fun _ _ => True) w := by
  have hstable : (buildContract setup env).Stable t fun _ => True := fun _ _ _ _ _ => trivial
  unfold localBuild
  refine bindAny (safe_quiet hdeployed (readWalRecords_quiet _) hstable trivial) (fun records w₁ _ _ => ?_)
    fun _ _ _ _ => trivial
  have hgenerator : (call .embeddingGenerator).Within Quiet := Prog.within_ask trivial
  refine bindAny (safe_quiet hdeployed (within_mapError hgenerator) hstable trivial)
    (fun generator w₂ _ _ => ?_) fun _ _ _ _ => trivial
  have hclock : (call .currentTimeMillis).Within Quiet := Prog.within_ask trivial
  refine bindExcept (liftExcept ((safe_quiet hdeployed hclock hstable trivial).mono fun createdAt w₃ _ _ => ?_))
  exact safe_buildIndex hdeployed _ _ _

end Build

end LTSearch
