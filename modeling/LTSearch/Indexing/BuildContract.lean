/-
# LTSearch.Indexing.BuildContract -- what build workers of one local deployment promise each other

Any number of build workers and writers over one SQLite database, one store and one artifact root.  The
observer writes down, for each allocation of a version, the keys the worker had listed and the active
snapshot then, and for each swap of the head the snapshot it replaced and the one it activated.

The lance directory of a version is a lock: a directory is never moved onto another, so who has moved
it is alone with that version, and the manifest that is stored for it is the one he moved.  From this
comes that an activated snapshot is what its worker had listed.
-/
import LTSearch.Foundation.SwapLog
import LTSearch.Indexing.BuildWorker
import LTSearch.Indexing.HeadChain
import LTSearch.Sqlite.Conservation

namespace LTSearch

open LTSearch.Foundation

/-! ## The observer -/

/-- What an allocating worker had listed, and the active snapshot at its read of the head. -/
structure Allocation where
  listed : List String
  based : List String

/-- Who swapped the head, after which allocation; `collided`: the head that was replaced is not the one
the publisher had read, only its tag is the same. -/
structure Attempt where
  worker : Nat
  allocation : Option Allocation
  collided : Bool

/-- The world, and two ghosts: the last allocation of each worker, and the swaps of the active
snapshot. -/
structure Annals where
  world : World
  allocation : Nat → Option Allocation
  snapshots : List (Swap Attempt (List String))

/-- The active snapshot, if there is a head. -/
def World.active (setup : Setup) (w : World) : Option (List String) :=
  (w.headBytes setup).map fun _ => w.activeSnapshot setup

def noteAllocated (t : Nat) (based : List String) :
    (op : Op) → op.Ans → (Nat → Option Allocation) → Nat → Option Allocation
  | .readHead (.allocator listed), .ok _, allocation =>
      Function.update allocation t (some { listed, based })
  | _, _, allocation => allocation

def noteActivated (setup : Setup) (t : Nat) (before after : World) (allocation : Option Allocation) :
    (op : Op) → op.Ans → List (Swap Attempt (List String)) → List (Swap Attempt (List String))
  | .swapHead seen _, .ok true, snapshots => snapshots ++ [{
      caller := {
        worker := t
        allocation
        collided := decide (before.headBytes setup ≠ seen.map (·.bytes)) }
      replaced := before.active setup
      written := after.activeSnapshot setup }]
  | _, _, snapshots => snapshots

/-- The machine of a node, observed. -/
def annalist (setup : Setup) : Machine nodeSignature Annals Choice Nat where
  apply t op c w :=
    let result := (node setup).apply t op c w.world
    (result.1, {
      world := result.2
      allocation := noteAllocated t (w.world.activeSnapshot setup) op result.1 w.allocation
      snapshots := noteActivated setup t w.world result.2 (w.allocation t) op result.1 w.snapshots })

/-! ## The contract -/

namespace Annals

/-- What stands under a key of the artifact root. -/
def entry (setup : Setup) (w : Annals) (key : String) : Option RootItem :=
  w.world.roots (setup.rootOf 0) key

/-- Who moved there what stands under a key. -/
def OwnedBy (setup : Setup) (t : Nat) (key : String) (w : Annals) : Prop :=
  ∃ item, w.entry setup key = some item ∧ item.mover = t

/-- A segment is in some snapshot that was activated. -/
def Snapshotted (key : String) (w : Annals) : Prop := ∃ s ∈ w.snapshots, key ∈ s.written

def opened (w : Annals) : List Delivery := w.world.queue.ledger.opened

def enqueued (w : Annals) : List QueueBatch := w.world.queue.ledger.enqueued

end Annals

/-- A deployment on one machine: files and SQLite, and one artifact root for all workers. -/
structure LocalDeployment (setup : Setup) : Prop where
  backend : setup.backend = .sqliteFs
  root : ∀ t, setup.rootOf t = setup.rootOf 0
  head : ManifestHead.RoundTrips setup.head

section Statement

variable (setup : Setup) (env : WorkerEnv)

/-- No claim token and no batch id was drawn twice, and the messages decode. -/
structure Fresh (w : Annals) : Prop where
  tokens : w.world.queue.ledger.issued.Nodup
  batches : w.world.queue.enqueuedIds.Nodup
  decodes : ∀ batch ∈ w.enqueued,
    env.parse batch.toJson = .ok { batchId := batch.batchId, walKey := batch.walKey }

/-- The queue is in order, and a batch is settled only when its segment was in an active snapshot. -/
structure QueueBooks (w : Annals) : Prop where
  inv : QueueInv setup.source w.world.queue
  placed : Placed w.world.queue
  opened : ∀ d ∈ w.world.queue.ledger.live, d ∈ w.opened
  settled : ∀ d ∈ w.world.queue.ledger.settled, ∃ batch ∈ w.enqueued,
    batch.batchId = d.batchId ∧ w.Snapshotted batch.walKey

/-- What is behind a swap: the snapshot is what the worker had listed, and it replaces the one the
worker had seen when it allocated its version. -/
structure SnapshotMade (s : Swap Attempt (List String)) : Prop where
  allocated : ∃ a, s.caller.allocation = some a ∧ s.written = a.listed ∧
    (s.caller.collided = false → s.replaced.getD [] = a.based)

structure BuildInv (w : Annals) : Prop where
  locked : ∀ v item, w.entry setup (versionManifestKey v) = some item →
    w.OwnedBy setup item.mover (lanceShardKey v)
  stored : ∀ v cell, w.world.objects (versionManifestKey v) = some cell →
    ∃ item, w.entry setup (versionManifestKey v) = some item ∧ item.segments = cell.content.segments
  head : ∀ bytes, w.world.headBytes setup = some bytes → ∃ v updatedAt, v ≠ 0 ∧
    minPlausibleEpochMillis ≤ updatedAt ∧ bytes = setup.head.toVec (.new v updatedAt) ∧
      (w.world.objects (versionManifestKey v)).isSome
  chained : Chained none w.snapshots (w.world.active setup)
  made : ∀ s ∈ w.snapshots, SnapshotMade s
  queue : Fresh env w → QueueBooks setup w

/-- What no step undoes. -/
structure Grows (w w' : Annals) : Prop where
  snapshots : w.snapshots <+: w'.snapshots
  opened : w.opened <+: w'.opened
  enqueued : w.enqueued <:+ w'.enqueued
  stored : ∀ v cell, w.world.objects (versionManifestKey v) = some cell →
    ∃ cell', w'.world.objects (versionManifestKey v) = some cell' ∧
      cell'.content.segments = cell.content.segments

/-- What the others leave alone: what `t` has moved, and the note on its last allocation. -/
structure Spares (t : Nat) (w w' : Annals) : Prop where
  entries : ∀ key item, item.mover = t → (w.entry setup key = some item ↔ w'.entry setup key = some item)
  allocation : w'.allocation t = w.allocation t

end Statement

variable {setup : Setup} {env : WorkerEnv} {t : Nat} {w w' w₁ w₂ w₃ : Annals}

theorem Grows.refl (w : Annals) : Grows w w :=
  ⟨List.prefix_refl _, List.prefix_refl _, List.suffix_refl _, fun _ cell h => ⟨cell, h, rfl⟩⟩

theorem Grows.trans (h : Grows w₁ w₂) (h' : Grows w₂ w₃) : Grows w₁ w₃ where
  snapshots := h.snapshots.trans h'.snapshots
  opened := h.opened.trans h'.opened
  enqueued := h.enqueued.trans h'.enqueued
  stored v cell hcell := by
    obtain ⟨cell₂, hcell₂, hsame₂⟩ := h.stored v cell hcell
    obtain ⟨cell₃, hcell₃, hsame₃⟩ := h'.stored v cell₂ hcell₂
    exact ⟨cell₃, hcell₃, hsame₃.trans hsame₂⟩

theorem Spares.owned_iff (h : Spares setup t w w') (key : String) :
    w.OwnedBy setup t key ↔ w'.OwnedBy setup t key := by
  constructor
  · rintro ⟨item, hitem, hmover⟩
    exact ⟨item, (h.entries key item hmover).mp hitem, hmover⟩
  · rintro ⟨item, hitem, hmover⟩
    exact ⟨item, (h.entries key item hmover).mpr hitem, hmover⟩

theorem Spares.refl (t : Nat) (w : Annals) : Spares setup t w w :=
  ⟨fun _ _ _ => Iff.rfl, rfl⟩

theorem Spares.trans (h : Spares setup t w₁ w₂) (h' : Spares setup t w₂ w₃) : Spares setup t w₁ w₃ where
  entries key item hmover := (h.entries key item hmover).trans (h'.entries key item hmover)
  allocation := h'.allocation.trans h.allocation

/-- What the workers and writers promise each other. -/
def buildContract (setup : Setup) (env : WorkerEnv) : Contract (annalist setup) where
  inv := BuildInv setup env
  change := Grows
  frame := Spares setup
  allowed _ _ _ _ := True
  change_refl := Grows.refl
  change_trans := Grows.trans
  frame_refl := Spares.refl
  frame_trans := Spares.trans

theorem Fresh.of_grows (h : Fresh env w') (hgrows : Grows w w') : Fresh env w where
  tokens := (hgrows.opened.map Delivery.token).sublist.nodup h.tokens
  batches := (hgrows.enqueued.map QueueBatch.batchId).sublist.nodup h.batches
  decodes batch hbatch := h.decodes batch (hgrows.enqueued.subset hbatch)

theorem Annals.Snapshotted.grows {key : String} (h : w.Snapshotted key) (hgrows : Grows w w') :
    w'.Snapshotted key := by
  obtain ⟨s, hs, hkey⟩ := h
  exact ⟨s, hgrows.snapshots.subset hs, hkey⟩

/-- The snapshot of a stored version does not change. -/
theorem Grows.snapshot_eq (h : Grows w w') {v : UInt64}
    (hstored : (w.world.objects (versionManifestKey v)).isSome) :
    w'.world.snapshot v = w.world.snapshot v ∧ (w'.world.objects (versionManifestKey v)).isSome := by
  obtain ⟨cell, hcell⟩ := Option.isSome_iff_exists.mp hstored
  obtain ⟨cell', hcell', hsame⟩ := h.stored v cell hcell
  unfold World.snapshot
  rw [hcell, hcell']
  exact ⟨hsame, rfl⟩

/-! ## The head -/

section Head

variable (hdeployed : LocalDeployment setup)

include hdeployed

theorem headBytes_eq (w : World) : w.headBytes setup = w.queue.db.activeHead := by
  simp only [World.headBytes, hdeployed.backend]

/-- A head that a publisher wrote names its version. -/
theorem headVersion_new {w : World} {v : UInt64} {updatedAt : Int} (hv : v ≠ 0)
    (htime : minPlausibleEpochMillis ≤ updatedAt)
    (hhead : w.headBytes setup = some (setup.head.toVec (.new v updatedAt))) :
    w.headVersion setup = some v := by
  unfold World.headVersion
  rw [hhead, Option.bind_some, ManifestHead.fromJson_new hdeployed.head hv htime]
  rfl

theorem activeSnapshot_new {w : World} {v : UInt64} {updatedAt : Int} (hv : v ≠ 0)
    (htime : minPlausibleEpochMillis ≤ updatedAt)
    (hhead : w.headBytes setup = some (setup.head.toVec (.new v updatedAt))) :
    w.activeSnapshot setup = w.snapshot v := by
  unfold World.activeSnapshot
  rw [headVersion_new hdeployed hv htime hhead]

omit hdeployed in
/-- Without a head nothing is active. -/
theorem activeSnapshot_none {w : World} (hhead : w.headBytes setup = none) :
    w.activeSnapshot setup = [] := by
  unfold World.activeSnapshot World.headVersion
  rw [hhead]
  rfl

/-- The active snapshot stays while the head does. -/
theorem active_eq (hinv : BuildInv setup env w) (hgrows : Grows w w')
    (hhead : w'.world.headBytes setup = w.world.headBytes setup) :
    w'.world.active setup = w.world.active setup := by
  unfold World.active
  rw [hhead]
  cases hbytes : w.world.headBytes setup with
  | none => rfl
  | some bytes =>
      obtain ⟨v, updatedAt, hv, htime, rfl, hstored⟩ := hinv.head bytes hbytes
      rw [activeSnapshot_new hdeployed hv htime hbytes,
        activeSnapshot_new hdeployed hv htime (hhead.trans hbytes), (hgrows.snapshot_eq hstored).1]

/-- A step that neither moves the head nor touches the queue: what is left to show is about the
artifact root and the stored manifests. -/
theorem inv_of_files (hinv : BuildInv setup env w) (hgrows : Grows w w')
    (hqueue : w'.world.queue = w.world.queue) (hsnapshots : w'.snapshots = w.snapshots)
    (hlocked : ∀ v item, w'.entry setup (versionManifestKey v) = some item →
      w'.OwnedBy setup item.mover (lanceShardKey v))
    (hstored : ∀ v cell, w'.world.objects (versionManifestKey v) = some cell →
      ∃ item, w'.entry setup (versionManifestKey v) = some item ∧
        item.segments = cell.content.segments) :
    BuildInv setup env w' := by
  have hhead : w'.world.headBytes setup = w.world.headBytes setup := by
    rw [headBytes_eq hdeployed, headBytes_eq hdeployed, hqueue]
  refine ⟨hlocked, hstored, fun bytes hbytes => ?_, ?_, ?_, fun hfresh => ?_⟩
  · obtain ⟨v, updatedAt, hv, htime, heq, hsome⟩ := hinv.head bytes (hhead ▸ hbytes)
    exact ⟨v, updatedAt, hv, htime, heq, (hgrows.snapshot_eq hsome).2⟩
  · rw [hsnapshots, active_eq hdeployed hinv hgrows hhead]
    exact hinv.chained
  · rw [hsnapshots]
    exact hinv.made
  · obtain ⟨hq, hplaced, hopened, hsettled⟩ := hinv.queue (hfresh.of_grows hgrows)
    have hledger : w'.world.queue.ledger = w.world.queue.ledger := congrArg Watched.ledger hqueue
    refine ⟨hqueue ▸ hq, hqueue ▸ hplaced, fun d hd => ?_, fun d hd => ?_⟩
    · show d ∈ w'.world.queue.ledger.opened
      rw [hledger] at hd ⊢
      exact hopened d hd
    · rw [hledger] at hd
      obtain ⟨batch, hbatch, hid, hkey⟩ := hsettled d hd
      exact ⟨batch, hgrows.enqueued.subset hbatch, hid, hkey.grows hgrows⟩

end Head

/-! ## Quiet operations -/

/-- The operations that touch nothing the contract speaks of. -/
def Quiet : Op → Prop
  | .readHead (.allocator _) => False
  | .swapHead _ _ => False
  | .putObject _ _ _ => False
  | .copyFile key _ => ∀ v, key ≠ versionManifestKey v
  | .moveIntoPlace _ _ _ => False
  | .removePath _ => False
  | .appendAndEnqueue _ _ _ => False
  | .receive => False
  | .ack _ => False
  | .nack _ _ => False
  | _ => True

/-- Nothing that the contract speaks of has changed. -/
structure SameBooks (w w' : Annals) : Prop where
  objects : ∀ v, w'.world.objects (versionManifestKey v) = w.world.objects (versionManifestKey v)
  roots : w'.world.roots = w.world.roots
  queue : w'.world.queue = w.world.queue
  allocation : w'.allocation = w.allocation
  snapshots : w'.snapshots = w.snapshots

namespace SameBooks

theorem grows (h : SameBooks w w') : Grows w w' where
  snapshots := h.snapshots ▸ List.prefix_refl _
  opened := by
    show w.world.queue.ledger.opened <+: w'.world.queue.ledger.opened
    rw [h.queue]
  enqueued := by
    show w.world.queue.ledger.enqueued <:+ w'.world.queue.ledger.enqueued
    rw [h.queue]
  stored v cell hcell := ⟨cell, (h.objects v).trans hcell, rfl⟩

theorem entry_eq (h : SameBooks w w') (key : String) : w'.entry setup key = w.entry setup key := by
  unfold Annals.entry
  rw [h.roots]

theorem spares (h : SameBooks w w') : Spares setup t w w' where
  entries key item _ := by rw [h.entry_eq]
  allocation := by rw [h.allocation]

theorem rely (h : SameBooks w w') : (buildContract setup env).Rely t w w' := ⟨h.grows, h.spares⟩

theorem keeps (hdeployed : LocalDeployment setup) (hinv : BuildInv setup env w) (h : SameBooks w w') :
    (buildContract setup env).Keeps t w w' := by
  refine ⟨?_, h.grows, fun _ _ => h.spares⟩
  apply inv_of_files hdeployed hinv h.grows h.queue h.snapshots
  · intro v item hitem
    rw [h.entry_eq] at hitem
    obtain ⟨l, hl, hmover⟩ := hinv.locked v item hitem
    exact ⟨l, (h.entry_eq _).trans hl, hmover⟩
  · intro v cell hcell
    rw [h.objects] at hcell
    obtain ⟨item, hitem, hsegments⟩ := hinv.stored v cell hcell
    exact ⟨item, (h.entry_eq _).trans hitem, hsegments⟩

end SameBooks

theorem Quiet.leavesHead {op : Op} (h : Quiet op) : LeavesHead op := by
  cases op with
  | swapHead _ _ => exact h
  | appendAndEnqueue _ _ _ => exact h
  | receive => exact h
  | ack _ => exact h
  | nack _ _ => exact h
  | _ => trivial

/-- What a quiet operation does to the files. -/
theorem perform_quiet {op : Op} (hop : Quiet op) (w : World) (c : Choice) :
    (∀ v, (w.perform setup t op c).2.objects (versionManifestKey v) = w.objects (versionManifestKey v)) ∧
      (w.perform setup t op c).2.roots = w.roots := by
  cases op with
  | readHead reader =>
      cases reader with
      | publisher => exact ⟨fun _ => rfl, rfl⟩
      | allocator listed => exact hop.elim
  | swapHead _ _ => exact hop.elim
  | putObject _ _ _ => exact hop.elim
  | moveIntoPlace _ _ _ => exact hop.elim
  | removePath _ => exact hop.elim
  | appendAndEnqueue _ _ _ => exact hop.elim
  | receive => exact hop.elim
  | ack _ => exact hop.elim
  | nack _ _ => exact hop.elim
  | copyFile key content =>
      have hput : ∀ (cell : Cell) v, (w.putCell key cell).objects (versionManifestKey v) =
          w.objects (versionManifestKey v) := fun cell v => World.objects_putCell_of_ne (hop v).symm cell
      simp only [World.perform, World.copyFileAt]
      split
      · split
        · exact ⟨hput _, rfl⟩
        · exact ⟨fun _ => rfl, rfl⟩
      · exact ⟨hput _, rfl⟩
  | storedExists key =>
      simp only [World.perform]
      split <;> exact ⟨fun _ => rfl, rfl⟩
  | makeDirectory key =>
      simp only [World.perform]
      split <;> exact ⟨fun _ => rfl, rfl⟩
  | probeTarget key =>
      simp only [World.perform]
      split <;> exact ⟨fun _ => rfl, rfl⟩
  | _ => exact ⟨fun _ => rfl, rfl⟩

theorem sameBooks_quiet {op : Op} (hop : Quiet op) (c : Choice) :
    SameBooks w ((annalist setup).apply t op c w).2 := by
  have hfiles := @perform_quiet setup t op hop w.world c
  refine ⟨fun v => ?_, ?_, ?_, ?_, ?_⟩
  · show ((w.world.perform setup t op c).2.noteActivation setup t w.world).objects _ = _
    rw [World.objects_noteActivation]
    exact hfiles.1 v
  · show ((w.world.perform setup t op c).2.noteActivation setup t w.world).roots = _
    rw [World.roots_noteActivation]
    exact hfiles.2
  · show ((w.world.perform setup t op c).2.noteActivation setup t w.world).queue = _
    rw [World.queue_noteActivation]
    exact queue_perform hop.leavesHead w.world t c
  · cases op with
    | readHead reader =>
        cases reader with
        | publisher => rfl
        | allocator listed => exact hop.elim
    | _ => rfl
  · cases op with
    | swapHead _ _ => exact hop.elim
    | _ => rfl

/-- A part that only asks for quiet operations: what the others keep true stays true. -/
theorem safe_quiet (hdeployed : LocalDeployment setup) {α : Type} {p : NodeM α} {P : Annals → Prop}
    (hp : p.Within Quiet) (hstable : (buildContract setup env).Stable t P) (hw : P w) :
    (buildContract setup env).Safe t p (fun _ => P) w := by
  apply Contract.Safe.within hp hstable hw
  intro op c w' hop hinv hP _
  have hsame : SameBooks w' ((annalist setup).apply t op c w').2 := sameBooks_quiet hop c
  have hkeeps : (buildContract setup env).Keeps t w' ((annalist setup).apply t op c w').2 :=
    hsame.keeps hdeployed hinv
  exact ⟨hkeeps, hstable _ _ hsame.rely hkeeps.inv hP⟩

end LTSearch
