/-
# LTSearch.Indexing.ConcurrentBuilds -- builders of one version exclude each other

Each builder has filled a staging directory of its own, checks that the version is not there yet, and
moves its shard directories and its manifest into place, in this order.  A directory is not renamed
onto one that has something in it, so the builder whose lance directory is in place has the version
to itself until it takes the directory away again; the manifest comes last, and what has a manifest
stays.
-/
import LTSearch.Storage.Paths
import LTSearch.Storage.StagedAtomic

namespace LTSearch

open LTSearch.Foundation FileTree

/-! ## Where builders put what -/

/-- One version of the index, and the names of the staging directories of its builders. -/
structure BuildSite (Builder : Type) where
  artifactRoot : Path
  version : UInt64
  /-- the process id and the time, which no two builders share -/
  suffix : Builder → String
  suffix_injective : Function.Injective suffix

namespace BuildSite

variable {Builder : Type} (site : BuildSite Builder)

def stagingRoot (b : Builder) : Path := site.artifactRoot ++ [".index-build-staging-" ++ site.suffix b]

/-- The lance directory of the version, below a root. -/
def lanceDir (root : Path) : Path := root ++ ["lance", "v" ++ toString site.version, "shard_0"]

def indexDir (root : Path) : Path := root ++ ["index", "v" ++ toString site.version, "shard_0"]

def manifestPath (root : Path) : Path :=
  root ++ ["index", "versions", toString site.version, "manifest.json"]

abbrev finalLanceDir : Path := site.lanceDir site.artifactRoot

abbrev finalIndexDir : Path := site.indexDir site.artifactRoot

abbrev finalManifestPath : Path := site.manifestPath site.artifactRoot

theorem apart_of_ne (root : Path) {a b : String} (h : a ≠ b) (p q : Path) :
    Apart (root ++ a :: p) (root ++ b :: q) := by
  constructor
  · intro hpre
    exact h (List.cons_prefix_cons.mp ((List.prefix_append_right_inj root).mp hpre)).1
  · intro hpre
    exact h (List.cons_prefix_cons.mp ((List.prefix_append_right_inj root).mp hpre)).1.symm

theorem apart_lance_index (root : Path) : Apart (site.lanceDir root) (site.indexDir root) :=
  apart_of_ne root (by decide) _ _

theorem apart_lance_manifest (root : Path) : Apart (site.lanceDir root) (site.manifestPath root) :=
  apart_of_ne root (by decide) _ _

/-- A number does not begin like a word. -/
theorem version_ne_versions : "v" ++ toString site.version ≠ "versions" := by
  intro heq
  have hchars : 'v' :: digits site.version = "versions".toList := by
    rw [← heq, String.toList_append]
    rfl
  have hmem : 'e' ∈ digits site.version := by
    rw [(List.cons.inj hchars).2]
    decide
  have hdigit := isDigit_of_mem_digits hmem
  cases hdigit

theorem apart_index_manifest (root : Path) : Apart (site.indexDir root) (site.manifestPath root) := by
  have hapart := apart_of_ne (root ++ ["index"]) site.version_ne_versions ["shard_0"]
    [toString site.version, "manifest.json"]
  rwa [List.append_assoc, List.append_assoc] at hapart

theorem staging_ne (b : Builder) {name : String} (h : name.toList.head? ≠ some '.') :
    ".index-build-staging-" ++ site.suffix b ≠ name := by
  intro heq
  apply h
  rw [← heq, String.toList_append]
  rfl

theorem apart_staging_lance (b : Builder) : Apart (site.stagingRoot b) site.finalLanceDir :=
  apart_of_ne _ (site.staging_ne b (by decide)) _ _

theorem apart_staging_index (b : Builder) : Apart (site.stagingRoot b) site.finalIndexDir :=
  apart_of_ne _ (site.staging_ne b (by decide)) _ _

theorem apart_staging_manifest (b : Builder) : Apart (site.stagingRoot b) site.finalManifestPath :=
  apart_of_ne _ (site.staging_ne b (by decide)) _ _

theorem apart_staging {b b' : Builder} (h : b ≠ b') : Apart (site.stagingRoot b) (site.stagingRoot b') := by
  refine apart_of_ne _ (fun heq => h (site.suffix_injective ?_)) _ _
  have hlist := congrArg String.toList heq
  rw [String.toList_append, String.toList_append] at hlist
  exact String.toList_inj.mp (List.append_cancel_left hlist)

/-! ## The programs -/

open StagedDir

/-- `ensure_target_is_publishable` -/
def ensureTargetIsPublishable (path : Path) : IndexM Unit := do
  if ← (call (.exists path) : FsM Bool) then
    throw (.operation s!"publish target already exists: {StagedDir.displayPath path}")
  let parent ← StagedDir.parentOf path
  if ← (call (.exists parent) : FsM Bool) then
    if !(← (call (.isDir parent) : FsM Bool)) then
      throw (.operation s!"publish target parent is not a directory: {StagedDir.displayPath parent}")

/-- The checks of `write_staged_build`. -/
def ensurePublishable : IndexM Unit := do
  ensureTargetIsPublishable site.finalLanceDir
  ensureTargetIsPublishable site.finalIndexDir
  ensureTargetIsPublishable site.finalManifestPath

/-- The moves of `publish_staged_build`. -/
def moves (b : Builder) : List (Path × Path) :=
  [(site.lanceDir (site.stagingRoot b), site.finalLanceDir),
    (site.indexDir (site.stagingRoot b), site.finalIndexDir),
    (site.manifestPath (site.stagingRoot b), site.finalManifestPath)]

/-- `stage_build` and `publish_staged_build` of a build whose staging directory is filled. -/
def publishBuild (b : Builder) : FsM (Except IndexError Unit) := do
  match ← site.ensurePublishable.run with
  | .error error => do
      let cleanup ← (removeDirAllIfExists (site.stagingRoot b)).run
      return .error (appendCleanupFailure error cleanup)
  | .ok _ => commit (site.stagingRoot b) (site.moves b)

end BuildSite

/-! ## The shared file system -/

/-- The tree, and a ghost: who made the last move to a place. -/
structure BuildWorld (Builder : Type) where
  tree : FileTree
  mover : Path → Option Builder

section

variable {Builder : Type}

/-- Write down a move. -/
def noteMove (b : Builder) : (op : FsOp) → op.Ans → (Path → Option Builder) → Path → Option Builder
  | .rename _ dest, .ok _, mover => Function.update mover dest (some b)
  | _, _, mover => mover

theorem noteMove_of_ne {b : Builder} {source dest q : Path} (h : q ≠ dest)
    (answer : Except String Unit) (mover : Path → Option Builder) :
    noteMove b (.rename source dest) answer mover q = mover q := by
  cases answer with
  | ok _ => exact Function.update_of_ne h _ _
  | error detail => rfl

/-- The file system that builders share. -/
def sharedDisk (Builder : Type) : Machine fsSignature (BuildWorld Builder) FsChoice Builder where
  apply b op c w :=
    let result := perform op c w.tree
    (result.1, { tree := result.2, mover := noteMove b op result.1 w.mover })

end

/-! ## What builders promise each other -/

/-- A directory with something in it. -/
def Full (p : Path) (tree : FileTree) : Prop := ∃ entry rest, get p tree = some (.dir (entry :: rest))

theorem Full.isDirAt {p : Path} {tree : FileTree} (h : Full p tree) : isDirAt p tree = true := by
  obtain ⟨entry, rest, hfull⟩ := h
  exact isDirAt_iff.mpr ⟨_, hfull⟩

theorem Full.congr {p q : Path} {tree tree' : FileTree} (h : Full p tree)
    (hsame : get q tree' = get p tree) : Full q tree' := by
  obtain ⟨entry, rest, hfull⟩ := h
  exact ⟨entry, rest, hsame.trans hfull⟩

/-- A directory with a name in it. -/
theorem full_of_children {p : Path} {tree : FileTree} (h : (children p tree).Nonempty) :
    Full p tree := by
  obtain ⟨name, hname⟩ := h
  unfold children at hname
  split at hname
  · rename_i entries hentries
    cases entries with
    | nil => simp at hname
    | cons entry rest => exact ⟨entry, rest, hentries⟩
  · simp at hname

namespace BuildSite

variable {Builder : Type} (site : BuildSite Builder)

/-- The directories of the version, which one builder at a time holds. -/
def slots : List Path := [site.finalLanceDir, site.finalIndexDir]

/-- All places of the version. -/
def finals : List Path := site.slots ++ [site.finalManifestPath]

theorem finals_apart : site.finals.Pairwise Apart := by
  simp [finals, slots, site.apart_lance_index, site.apart_lance_manifest, site.apart_index_manifest]

theorem staging_final (b : Builder) {p : Path} (hp : p ∈ site.finals) : Apart (site.stagingRoot b) p := by
  simp only [finals, slots, List.cons_append, List.nil_append, List.mem_cons, List.not_mem_nil,
    or_false] at hp
  rcases hp with rfl | rfl | rfl
  · exact site.apart_staging_lance b
  · exact site.apart_staging_index b
  · exact site.apart_staging_manifest b

theorem final_of_slot {p : Path} (hp : p ∈ site.slots) : p ∈ site.finals := List.mem_append_left _ hp

theorem slot_apart_manifest {p : Path} (hp : p ∈ site.slots) : Apart p site.finalManifestPath := by
  simp only [slots, List.mem_cons, List.not_mem_nil, or_false] at hp
  rcases hp with rfl | rfl
  · exact site.apart_lance_manifest _
  · exact site.apart_index_manifest _

/-- Two places are one or apart. -/
theorem finals_eq_or_apart {p q : Path} (hp : p ∈ site.finals) (hq : q ∈ site.finals) :
    p = q ∨ Apart p q := by
  by_cases heq : p = q
  · exact .inl heq
  · have hsymm : Std.Symm (Apart : Path → Path → Prop) := ⟨fun _ _ h => h.symm⟩
    exact .inr (site.finals_apart.forall hp hq heq)

/-- The builder has this directory of the version to itself. -/
structure Holds (b : Builder) (p : Path) (w : BuildWorld Builder) : Prop where
  mover : w.mover p = some b
  full : Full p w.tree

/-- The whole version is in place, and is what the builder had staged. -/
structure Placed (staged : FileTree) (b : Builder) (w : BuildWorld Builder) : Prop where
  mover : ∀ p ∈ site.finals, w.mover p = some b
  content : ∀ m ∈ site.moves b, get m.2 w.tree = get m.1 staged

/-- What the others leave to the builder `b`: its staging directory, the directories it holds, and
what it is said to have moved. -/
structure LeftAlone (b : Builder) (w w' : BuildWorld Builder) : Prop where
  staging : ∀ p, site.stagingRoot b <+: p → get p w'.tree = get p w.tree
  held : ∀ p ∈ site.slots, Holds b p w → w'.mover p = some b ∧ get p w'.tree = get p w.tree
  mover : ∀ p ∈ site.finals, w'.mover p = some b → w.mover p = some b

/-- A version with a manifest is whole, and stays. -/
def contract (staged : FileTree) : Contract (sharedDisk Builder) where
  inv w := ∀ b, w.mover site.finalManifestPath = some b → site.Placed staged b w
  change w w' := ∀ b, site.Placed staged b w → site.Placed staged b w'
  frame := site.LeftAlone
  allowed _ _ _ _ := True
  change_refl _ _ h := h
  change_trans h h' b hplaced := h' b (h b hplaced)
  frame_refl _ _ := ⟨fun _ _ => rfl, fun _ _ h => ⟨h.mover, rfl⟩, fun _ _ h => h⟩
  frame_trans {b w₁ w₂ w₃} h h' := by
    refine ⟨fun p hp => (h'.staging p hp).trans (h.staging p hp), fun p hp hholds => ?_,
      fun p hp hmover => h.mover p hp (h'.mover p hp hmover)⟩
    obtain ⟨hmover, hsame⟩ := h.held p hp hholds
    obtain ⟨hmover', hsame'⟩ := h'.held p hp ⟨hmover, hholds.full.congr hsame⟩
    exact ⟨hmover', hsame'.trans hsame⟩

/-- The builder has filled its staging directory. -/
structure Filled (staged : FileTree) (b : Builder) : Prop where
  lance : Full (site.lanceDir (site.stagingRoot b)) staged
  index : Full (site.indexDir (site.stagingRoot b)) staged
  manifest : ∃ bytes, get (site.manifestPath (site.stagingRoot b)) staged = some (.file bytes)

section Steps

variable {site} {staged : FileTree} {b : Builder} {p : Path} {w w' : BuildWorld Builder}

theorem final_of_move {m : Path × Path} (hm : m ∈ site.moves b) : m.2 ∈ site.finals := by
  simp only [moves, List.mem_cons, List.not_mem_nil, or_false] at hm
  rcases hm with rfl | rfl | rfl <;> simp [finals, slots]

theorem below_of_move {m : Path × Path} (hm : m ∈ site.moves b) : site.stagingRoot b <+: m.1 := by
  simp only [moves, List.mem_cons, List.not_mem_nil, or_false] at hm
  rcases hm with rfl | rfl | rfl <;> exact List.prefix_append _ _

/-- What is moved to a directory of the version is a directory with something in it. -/
theorem Filled.full (h : site.Filled staged b) {m : Path × Path} (hm : m ∈ site.moves b)
    (hp : m.2 ∈ site.slots) : Full m.1 staged := by
  simp only [moves, List.mem_cons, List.not_mem_nil, or_false] at hm
  rcases hm with rfl | rfl | rfl
  · exact h.lance
  · exact h.index
  · exact absurd (List.prefix_refl _) (site.slot_apart_manifest hp).1

theorem exists_move (hp : p ∈ site.finals) (b : Builder) : ∃ m ∈ site.moves b, m.2 = p := by
  simp only [finals, slots, List.cons_append, List.nil_append, List.mem_cons, List.not_mem_nil,
    or_false] at hp
  rcases hp with rfl | rfl | rfl <;> simp [moves]

/-- Whoever has placed the version holds its directories. -/
theorem Placed.holds (h : site.Placed staged b w) (hfilled : site.Filled staged b) (hp : p ∈ site.slots) :
    Holds b p w := by
  obtain ⟨m, hm, rfl⟩ := exists_move (site.final_of_slot hp) b
  exact ⟨h.mover m.2 (site.final_of_slot hp), (hfilled.full hm hp).congr (h.content m hm)⟩

theorem Placed.congr (h : site.Placed staged b w) (hmover : ∀ p ∈ site.finals, w'.mover p = w.mover p)
    (hsame : ∀ p ∈ site.finals, get p w'.tree = get p w.tree) : site.Placed staged b w' where
  mover p hp := (hmover p hp).trans (h.mover p hp)
  content m hm := (hsame m.2 (final_of_move hm)).trans (h.content m hm)

/-- A manifest has one mover. -/
theorem Placed.unique {b' : Builder} (h : site.Placed staged b w)
    (h' : site.Placed staged b' w) : b' = b := by
  have hmanifest : site.finalManifestPath ∈ site.finals := by simp [finals]
  exact Option.some.inj ((h'.mover _ hmanifest).symm.trans (h.mover _ hmanifest))

/-- A step away from the places of the version and from the staging directories of the others. -/
theorem keeps_of_same (hinv : (site.contract staged).inv w)
    (hmover : ∀ p ∈ site.finals, w'.mover p = w.mover p)
    (hfinal : ∀ p ∈ site.finals, get p w'.tree = get p w.tree)
    (hstaging : ∀ b', b' ≠ b → ∀ p, site.stagingRoot b' <+: p → get p w'.tree = get p w.tree) :
    (site.contract staged).Keeps b w w' where
  inv b' hb' := by
    rw [hmover _ (by simp [finals])] at hb'
    exact (hinv b' hb').congr hmover hfinal
  change b' hplaced := hplaced.congr hmover hfinal
  frame b' hne := by
    refine ⟨hstaging b' hne, fun p hp hholds => ?_, fun p hp h => (hmover p hp).symm.trans h⟩
    exact ⟨(hmover p (site.final_of_slot hp)).trans hholds.mover, hfinal p (site.final_of_slot hp)⟩

/-- A step at a place that no other builder holds, while nobody has placed the version. -/
theorem keeps_at (hp : p ∈ site.finals) (hfree : ∀ b', ¬site.Placed staged b' w)
    (hheld : p ∈ site.slots → ∀ b', b' ≠ b → ¬Holds b' p w) (hinv : (site.contract staged).inv w')
    (hsame : ∀ q, Apart p q → Apart (site.stagingRoot b) q → get q w'.tree = get q w.tree)
    (hmover : ∀ q, q ≠ p → w'.mover q = w.mover q)
    (hhere : ∀ b', b' ≠ b → w'.mover p = some b' → w.mover p = some b') :
    (site.contract staged).Keeps b w w' where
  inv := hinv
  change b' hplaced := absurd hplaced (hfree b')
  frame b' hne := by
    refine ⟨fun q hq => ?_, fun q hq hholds => ?_, fun q hq h => ?_⟩
    · apply hsame
      · exact ((site.staging_final b' hp).of_below hq).symm
      · exact ((site.apart_staging hne).of_below hq).symm
    · -- what another builder holds is another place, and stays
      have hother : q ≠ p := by
        rintro rfl
        exact hheld hq b' hne hholds
      have hapart := (site.finals_eq_or_apart hp (site.final_of_slot hq)).resolve_left hother.symm
      refine ⟨(hmover q hother).trans hholds.mover, ?_⟩
      exact hsame q hapart (site.staging_final b (site.final_of_slot hq))
    · by_cases hother : q = p
      · subst hother
        exact hhere b' hne h
      · exact (hmover q hother).symm.trans h

/-- While a builder that has not moved its manifest holds a place, nobody has placed the version. -/
theorem not_placed_of_mover (hp : p ∈ site.finals) (hb : w.mover p = some b)
    (hmanifest : w.mover site.finalManifestPath ≠ some b) (b' : Builder) : ¬site.Placed staged b' w := by
  intro hplaced
  obtain rfl : b = b' := Option.some.inj (hb.symm.trans (hplaced.mover p hp))
  exact hmanifest (hplaced.mover _ (by simp [finals]))

theorem not_placed_of_not_full (hfilled : ∀ b, site.Filled staged b) (hp : p ∈ site.slots)
    (h : ¬Full p w.tree) (b' : Builder) : ¬site.Placed staged b' w :=
  fun hplaced => h (hplaced.holds (hfilled b') hp).full

theorem not_holds_of_mover (hb : w.mover p = some b) (b' : Builder) (hne : b' ≠ b) : ¬Holds b' p w :=
  fun hholds => hne (Option.some.inj (hholds.mover.symm.trans hb))

/-- Where nobody has placed the version, nobody has moved its manifest. -/
theorem inv_of_free (hinv : (site.contract staged).inv w) (hfree : ∀ b', ¬site.Placed staged b' w)
    (hmover : w'.mover site.finalManifestPath = w.mover site.finalManifestPath) :
    (site.contract staged).inv w' := by
  intro b' hb'
  rw [hmover] at hb'
  exact absurd (hinv b' hb') (hfree b')

/-! ## The operations -/

theorem final_ne_nil (hp : p ∈ site.finals) : p ≠ [] := by
  rintro rfl
  simp [finals, slots, lanceDir, indexDir, manifestPath] at hp

/-- The directories on the way to a place hold nothing of a version yet. -/
theorem not_prefix_dropLast {q : Path} (hp : p ∈ site.finals) (hq : p = q ∨ Apart p q) :
    ¬q <+: p.dropLast := by
  rintro hpre
  rcases hq with rfl | hapart
  · have hne : p ≠ [] := final_ne_nil hp
    have hlength := hpre.length_le
    rw [List.length_dropLast] at hlength
    exact absurd (List.length_pos_of_ne_nil hne) (by omega)
  · exact hapart.2 (hpre.trans p.dropLast_prefix)

theorem keeps_createDirAll (hp : p ∈ site.finals) (hinv : (site.contract staged).inv w) (c : FsChoice) :
    (site.contract staged).Keeps b w ((sharedDisk Builder).apply b (.createDirAll p.dropLast) c w).2 := by
  apply keeps_of_same hinv
  · exact fun q hq => rfl
  · intro q hq
    exact get_createDirAll (not_prefix_dropLast hp (site.finals_eq_or_apart hp hq)) c w.tree
  · intro b' hne q hq
    apply get_createDirAll
    apply not_prefix_dropLast hp
    exact .inr ((site.staging_final b' hp).of_below hq).symm

theorem get_createDirAll_below (hp : p ∈ site.finals) {q : Path} (hq : site.stagingRoot b <+: q)
    (c : FsChoice) :
    get q ((sharedDisk Builder).apply b (.createDirAll p.dropLast) c w).2.tree = get q w.tree := by
  apply get_createDirAll
  apply not_prefix_dropLast hp
  exact .inr ((site.staging_final b hp).of_below hq).symm

/-- In its staging directory a builder does what it likes. -/
theorem keeps_inside {op : FsOp} (hop : op.Inside (site.stagingRoot b))
    (hinv : (site.contract staged).inv w) (c : FsChoice) :
    (site.contract staged).Keeps b w ((sharedDisk Builder).apply b op c w).2 := by
  apply keeps_of_same hinv
  · intro q hq
    -- a rename inside the staging directory is no move to a place of the version
    cases op with
    | rename source dest =>
        have hother : q ≠ dest := by
          rintro rfl
          exact (site.staging_final b hq).1 hop.2.1
        exact noteMove_of_ne hother _ _
    | _ => rfl
  · exact fun q hq => get_perform_inside hop (site.staging_final b hq) c w.tree
  · intro b' hne q hq
    exact get_perform_inside hop ((site.apart_staging hne).of_below hq).symm c w.tree

/-- A step of the removal of a directory of the version. -/
theorem keeps_removal {op : FsOp} (hp : p ∈ site.slots) (hop : op.Inside p)
    (hquiet : ∀ answer mover, noteMove b op answer mover = mover)
    (hfree : ∀ b', ¬site.Placed staged b' w) (hheld : ∀ b', b' ≠ b → ¬Holds b' p w)
    (hinv : (site.contract staged).inv w) (c : FsChoice) :
    (site.contract staged).Keeps b w ((sharedDisk Builder).apply b op c w).2 := by
  have hmover : ((sharedDisk Builder).apply b op c w).2.mover = w.mover := hquiet _ _
  apply keeps_at (site.final_of_slot hp) hfree fun _ => hheld
  · exact inv_of_free hinv hfree (by rw [hmover])
  · exact fun q hq _ => get_perform_inside hop hq c w.tree
  · exact fun q _ => by rw [hmover]
  · exact fun b' _ h => hmover ▸ h

/-- A rename that goes through. -/
structure Moved (b : Builder) (s p : Path) (w w' : BuildWorld Builder) : Prop where
  dest : get p w'.tree = get s w.tree
  apart : ∀ q, Apart p q → Apart s q → get q w'.tree = get q w.tree
  mover : w'.mover = Function.update w.mover p (some b)

theorem rename_cases {s : Path} (hapart : Apart s p) (w : BuildWorld Builder) (c : FsChoice) :
    (∃ w', (sharedDisk Builder).apply b (.rename s p) c w = (.ok (), w') ∧
        rename s p w.tree = some w'.tree ∧ Moved b s p w w') ∨
      (sharedDisk Builder).apply b (.rename s p) c w = (.error c.detail, w) := by
  rcases StagedDir.perform_rename_cases s p w.tree c with ⟨-, tree', hrename, hperform⟩ | ⟨-, hperform⟩
  · obtain ⟨node, hrenamed⟩ := rename_eq_some hapart hrename
    refine .inl ⟨⟨tree', Function.update w.mover p (some b)⟩, ?_, hrename, ?_⟩
    · simp only [sharedDisk, hperform, noteMove]
    · exact ⟨hrenamed.dest_after.trans hrenamed.source_before.symm,
        fun q hp hs => hrenamed.apart q hs hp, rfl⟩
  · right
    simp only [sharedDisk, hperform, noteMove]

/-- Onto a directory with something in it no other is renamed. -/
theorem not_full_of_rename {s : Path} {tree tree' : FileTree} (hapart : Apart s p) (hs : Full s tree)
    (h : rename s p tree = some tree') : ¬Full p tree := by
  rintro ⟨entry, rest, hfull⟩
  obtain ⟨entry', rest', hs⟩ := hs
  rw [rename_eq_none hapart hs hfull] at h
  cases h

/-- A directory of the version is taken: it was nobody's. -/
theorem keeps_moved_slot (hfilled : ∀ b, site.Filled staged b) {s : Path} (hp : p ∈ site.slots)
    (hs : site.stagingRoot b <+: s) (hfull : Full s w.tree) (hrename : rename s p w.tree = some w'.tree)
    (hmoved : Moved b s p w w') (hinv : (site.contract staged).inv w) :
    (site.contract staged).Keeps b w w' := by
  have hapart : Apart s p := (site.staging_final b (site.final_of_slot hp)).of_below hs
  -- the rename went through, so nothing was in the place, and nobody can have held it
  have hnot := not_full_of_rename hapart hfull hrename
  have hfree : ∀ b', ¬site.Placed staged b' w := not_placed_of_not_full hfilled hp hnot
  have hmanifest : w'.mover site.finalManifestPath = w.mover site.finalManifestPath := by
    rw [hmoved.mover, Function.update_of_ne]
    intro heq
    exact (site.slot_apart_manifest hp).1 (heq ▸ List.prefix_refl _)
  apply keeps_at (site.final_of_slot hp) hfree fun _ b' _ hholds => hnot hholds.full
  · exact inv_of_free hinv hfree hmanifest
  · exact fun q hq hroot => hmoved.apart q hq (hroot.of_below hs)
  · intro q hq
    rw [hmoved.mover, Function.update_of_ne hq]
  · intro b' hne h
    rw [hmoved.mover, Function.update_self] at h
    exact absurd (Option.some.inj h).symm hne

/-! ## The roll-back -/

/-- A builder that takes back its moves: these directories it still holds. -/
structure Rolling (site : BuildSite Builder) (b : Builder) (later : List Path) (w : BuildWorld Builder) :
    Prop where
  manifest : w.mover site.finalManifestPath ≠ some b
  holds : ∀ p ∈ later, Holds b p w

theorem stable_rolling {later : List Path} (hlater : ∀ p ∈ later, p ∈ site.slots) :
    (site.contract staged).Stable b (Rolling site b later) := by
  intro w w' hrely _ h
  have hleft : site.LeftAlone b w w' := hrely.2
  refine ⟨fun hmanifest => h.manifest (hleft.mover _ (by simp [finals]) hmanifest), fun p hp => ?_⟩
  obtain ⟨hmover, hsame⟩ := hleft.held p (hlater p hp) (h.holds p hp)
  exact ⟨hmover, (h.holds p hp).full.congr hsame⟩

/-- A directory is given back entry by entry; as long as one is left, it is still held. -/
structure Emptying (site : BuildSite Builder) (b : Builder) (p : Path) (names : List String)
    (later : List Path) (w : BuildWorld Builder) : Prop where
  rolling : Rolling site b later w
  holds : names ≠ [] → Holds b p w
  left : names ≠ [] → children p w.tree = names.toFinset

theorem stable_emptying {names : List String} {later : List Path} (hp : p ∈ site.slots)
    (hlater : ∀ p ∈ later, p ∈ site.slots) :
    (site.contract staged).Stable b (Emptying site b p names later) := by
  intro w w' hrely hinv h
  have hleft : site.LeftAlone b w w' := hrely.2
  refine ⟨stable_rolling hlater w w' hrely hinv h.rolling, fun hne => ?_, fun hne => ?_⟩
  · obtain ⟨hmover, hsame⟩ := hleft.held p hp (h.holds hne)
    exact ⟨hmover, (h.holds hne).full.congr hsame⟩
  · -- the others do not touch the entries of a directory that is held
    rw [← h.left hne]
    exact StagedDir.children_congr (hleft.held p hp (h.holds hne)).2

/-- What is done to one directory leaves the others as they are. -/
theorem Rolling.of_removal {op : FsOp} {later : List Path} (h : Rolling site b later w) (hop : op.Inside p)
    (hquiet : ∀ answer mover, noteMove b op answer mover = mover) (hapart : ∀ q ∈ later, Apart p q)
    (c : FsChoice) : Rolling site b later ((sharedDisk Builder).apply b op c w).2 := by
  have hmover : ((sharedDisk Builder).apply b op c w).2.mover = w.mover := hquiet _ _
  refine ⟨by rw [hmover]; exact h.manifest, fun q hq => ⟨by rw [hmover]; exact (h.holds q hq).mover, ?_⟩⟩
  exact (h.holds q hq).full.congr (get_perform_inside hop (hapart q hq) c w.tree)

/-- An operation that succeeds only at a directory that nobody can hold keeps the contract. -/
theorem keeps_last {op : FsOp} (hfilled : ∀ b, site.Filled staged b) (hp : p ∈ site.slots)
    (hop : op.Inside p) (hquiet : ∀ answer mover, noteMove b op answer mover = mover) {c : FsChoice}
    (hfull : Full p w.tree → (perform op c w.tree).2 = w.tree) (hinv : (site.contract staged).inv w) :
    (site.contract staged).Keeps b w ((sharedDisk Builder).apply b op c w).2 := by
  by_cases h : Full p w.tree
  · apply Contract.Keeps.of_eq hinv
    show BuildWorld.mk (perform op c w.tree).2 (noteMove b op _ w.mover) = w
    rw [hfull h, hquiet]
  · -- nobody holds an empty directory
    have hfree : ∀ b', ¬site.Placed staged b' w := not_placed_of_not_full hfilled hp h
    exact keeps_removal hp hop hquiet hfree (fun b' _ hholds => h hholds.full) hinv c

theorem perform_removeDir_full {c : FsChoice} {tree : FileTree} (h : Full p tree) :
    (perform (.removeDir p) c tree).2 = tree := by
  obtain ⟨entry, rest, hfull⟩ := h
  simp only [perform, hfull]
  split
  · rename_i heq
    cases heq
  · rfl

theorem perform_removeFile_full {c : FsChoice} {tree : FileTree} (h : Full p tree) :
    (perform (.removeFile p) c tree).2 = tree := by
  obtain ⟨entry, rest, hfull⟩ := h
  simp only [perform, hfull]
  split
  · rename_i heq
    cases heq
  · rfl

theorem perform_remove_cases (p : Path) (c : FsChoice) (tree : FileTree) :
    perform (.remove p) c tree = (.ok (), set p none tree) ∨
      perform (.remove p) c tree = (.error c.detail, tree) := by
  simp only [perform]
  split
  · exact .inr rfl
  · exact .inl rfl

open StagedDir

variable {later : List Path}

/-- The entries of a directory that is given back. -/
theorem safe_removeEntries (hp : p ∈ site.slots) (hlater : ∀ q ∈ later, q ∈ site.slots)
    (hapart : ∀ q ∈ later, Apart p q) {names : List String} (hnodup : names.Nodup)
    (h : Emptying site b p names later w) :
    (site.contract staged).Safe b (removeEntries p names).run (fun _ => Rolling site b later) w := by
  induction names generalizing w with
  | nil => exact Contract.Safe.done fun w' hrely hinv => stable_rolling hlater w w' hrely hinv h.rolling
  | cons name rest ih =>
      rw [removeEntries_cons]
      apply Contract.Safe.call (stable_emptying hp hlater) h
      intro w' c hinv hw' _
      -- as long as an entry is left the directory is full, hence still held
      have hholds := hw'.holds (List.cons_ne_nil _ _)
      have hinside : FsOp.Inside p (.remove (p ++ [name])) := List.prefix_append p _
      have hfree : ∀ b', ¬site.Placed staged b' w' :=
        not_placed_of_mover (site.final_of_slot hp) hholds.mover hw'.rolling.manifest
      have hrolling := hw'.rolling.of_removal hinside (fun _ _ => rfl) hapart c
      refine ⟨keeps_removal hp hinside (fun _ _ => rfl) hfree (not_holds_of_mover hholds.mover) hinv c, ?_⟩
      rcases perform_remove_cases (p ++ [name]) c w'.tree with hperform | hperform
      · -- one entry less
        obtain ⟨hfresh, hrest⟩ := List.nodup_cons.mp hnodup
        have hleft : children p (set (p ++ [name]) none w'.tree) = rest.toFinset := by
          rw [children_set hholds.full.isDirAt, hw'.left (List.cons_ne_nil _ _), List.toFinset_cons,
            Finset.erase_insert]
          rwa [List.mem_toFinset]
        simp only [sharedDisk, hperform] at hrolling ⊢
        refine ih hrest ⟨hrolling, fun hne => ⟨hholds.mover, ?_⟩, fun _ => hleft⟩
        apply full_of_children
        show (children p (set (p ++ [name]) none w'.tree)).Nonempty
        rw [hleft, List.toFinset_nonempty_iff]
        exact hne
      · simp only [sharedDisk, hperform] at hrolling ⊢
        exact Contract.Safe.done fun w'' hrely hinv => stable_rolling hlater _ _ hrely hinv hrolling

/-- A read. -/
theorem safe_read {α : Type} {op : FsOp} {next : op.Ans → FsM α} {P : BuildWorld Builder → Prop}
    {Q : α → BuildWorld Builder → Prop} (hstable : (site.contract staged).Stable b P) (hw : P w)
    (hread : ∀ c w, ((sharedDisk Builder).apply b op c w).2 = w)
    (h : ∀ answer w', P w' → (site.contract staged).Safe b (next answer) Q w') :
    (site.contract staged).Safe b (after op next) Q w := by
  apply Contract.Safe.call hstable hw
  intro w' c hinv hw' _
  rw [hread]
  exact ⟨.refl hinv, h _ w' hw'⟩

theorem readDir_same (b : Builder) (p : Path) (c : FsChoice) (w : BuildWorld Builder) :
    ((sharedDisk Builder).apply b (.readDir p) c w).2 = w := by
  show BuildWorld.mk (perform (.readDir p) c w.tree).2 w.mover = w
  rw [show (perform (.readDir p) c w.tree).2 = w.tree by simp only [perform]; split <;> rfl]

/-- The names that are read are those of the directory. -/
theorem perform_readDir_ok {c : FsChoice} {tree : FileTree} {names : List String}
    (hdir : isDirAt p tree = true) (h : (perform (.readDir p) c tree).1 = .ok names) :
    names.Nodup ∧ children p tree = names.toFinset := by
  by_cases hworks : works c
  · obtain ⟨names', hnodup, hnames, hperform⟩ := perform_readDir hdir hworks
    rw [hperform] at h
    obtain rfl : names' = names := Except.ok.inj h
    exact ⟨hnodup, hnames.symm⟩
  · simp [perform, Bool.not_eq_false _ ▸ hworks] at h

/-- The directory that is given back, and those whose turn comes later. -/
structure Releasing (site : BuildSite Builder) (p : Path) (later : List Path) : Prop where
  slot : p ∈ site.slots
  slots : ∀ q ∈ later, q ∈ site.slots
  apart : ∀ q ∈ later, Apart p q

/-- The last step of a removal: it succeeds only where nothing is left. -/
theorem safe_last {α : Type} {op : FsOp} {next : op.Ans → FsM α} (hfilled : ∀ b, site.Filled staged b)
    (hplaces : Releasing site p later) (hop : op.Inside p)
    (hquiet : ∀ answer mover, noteMove b op answer mover = mover)
    (hfull : ∀ c tree, Full p tree → (perform op c tree).2 = tree) (h : Rolling site b later w)
    (hnext : ∀ answer w', Rolling site b later w' →
      (site.contract staged).Safe b (next answer) (fun _ => Rolling site b later) w') :
    (site.contract staged).Safe b (after op next) (fun _ => Rolling site b later) w := by
  apply Contract.Safe.call (stable_rolling hplaces.slots) h
  intro w' c hinv hw' _
  refine ⟨keeps_last hfilled hplaces.slot hop hquiet (hfull c w'.tree) hinv, hnext _ _ ?_⟩
  exact hw'.of_removal hop hquiet hplaces.apart c

theorem safe_done {α : Type} {a : α} (hplaces : Releasing site p later) (h : Rolling site b later w) :
    (site.contract staged).Safe b (.done a : FsM α) (fun _ => Rolling site b later) w :=
  Contract.Safe.done fun w' hrely hinv => stable_rolling hplaces.slots w w' hrely hinv h

theorem Rolling.tail (h : Rolling site b (p :: later) w) : Rolling site b later w :=
  ⟨h.manifest, fun q hq => h.holds q (List.mem_cons_of_mem _ hq)⟩

theorem safe_removeDirAll (hfilled : ∀ b, site.Filled staged b) (hplaces : Releasing site p later)
    (h : Rolling site b (p :: later) w) :
    (site.contract staged).Safe b (removeDirAll p).run (fun _ => Rolling site b later) w := by
  rw [removeDirAll_run]
  have hall : ∀ q ∈ p :: later, q ∈ site.slots := List.forall_mem_cons.mpr ⟨hplaces.slot, hplaces.slots⟩
  apply Contract.Safe.call (stable_rolling hall) h
  intro w' c hinv hw' _
  have hsame := readDir_same b p c w'
  rw [hsame]
  refine ⟨.refl hinv, ?_⟩
  cases hanswer : ((sharedDisk Builder).apply b (.readDir p) c w').1 with
  | error detail => exact safe_done hplaces hw'.tail
  | ok names =>
      -- the names were read while the directory was held, so they are all there is
      have hholds := hw'.holds p (List.mem_cons_self ..)
      obtain ⟨hnodup, hleft⟩ := perform_readDir_ok hholds.full.isDirAt hanswer
      have hemptying : Emptying site b p names later w' := ⟨hw'.tail, fun _ => hholds, fun _ => hleft⟩
      apply Contract.Safe.bind
      refine (safe_removeEntries hplaces.slot hplaces.slots hplaces.apart hnodup hemptying).mono ?_
      intro result w'' _ hrolling
      cases result with
      | error detail => exact safe_done hplaces hrolling
      | ok _ =>
          have hinside : FsOp.Inside p (.removeDir p) := List.prefix_refl p
          apply safe_last hfilled hplaces hinside (fun _ _ => rfl)
            (fun _ _ => perform_removeDir_full) hrolling
          exact fun answer w' hw' => safe_done hplaces hw'

/-- One move is taken back, whatever fails on the way. -/
theorem safe_removePathIfExists (hfilled : ∀ b, site.Filled staged b) (hplaces : Releasing site p later)
    (h : Rolling site b (p :: later) w) :
    (site.contract staged).Safe b (removePathIfExists p).run (fun _ => Rolling site b later) w := by
  rw [removePathIfExists_run]
  have hall : ∀ q ∈ p :: later, q ∈ site.slots := List.forall_mem_cons.mpr ⟨hplaces.slot, hplaces.slots⟩
  apply safe_read (stable_rolling hall) h (fun _ _ => rfl)
  intro found w' hw'
  -- the two probes may answer wrongly, and then nothing is removed
  cases found with
  | false => exact safe_done hplaces hw'.tail
  | true =>
      apply safe_read (stable_rolling hall) hw' (fun _ _ => rfl)
      intro directory w'' hw''
      cases directory with
      | true =>
          apply Contract.Safe.bind
          refine (safe_removeDirAll hfilled hplaces hw'').mono ?_
          exact fun result w' _ hw' => safe_done hplaces hw'
      | false =>
          have hinside : FsOp.Inside p (.removeFile p) := List.prefix_refl p
          apply safe_last hfilled hplaces hinside (fun _ _ => rfl)
            (fun _ _ => perform_removeFile_full) hw''.tail
          exact fun answer w' hw' => safe_done hplaces hw'

/-- All moves are taken back. -/
theorem safe_removeMoved (hfilled : ∀ b, site.Filled staged b) {moved : List Path}
    (hslots : ∀ p ∈ moved, p ∈ site.slots) (hapart : moved.Pairwise Apart) (h : Rolling site b moved w) :
    (site.contract staged).Safe b (removeMoved moved) (fun _ _ => True) w := by
  induction moved generalizing w with
  | nil => exact Contract.Safe.done fun _ _ _ => trivial
  | cons p rest ih =>
      obtain ⟨hp, hrest⟩ := List.pairwise_cons.mp hapart
      obtain ⟨hslot, hslots⟩ := List.forall_mem_cons.mp hslots
      rw [removeMoved_cons]
      apply Contract.Safe.bind
      refine (safe_removePathIfExists hfilled ⟨hslot, hslots, hp⟩ h).mono ?_
      intro result w' _ hw'
      apply Contract.Safe.bind
      refine (ih hslots hrest hw').mono ?_
      exact fun _ _ _ _ => Contract.Safe.done fun _ _ _ => trivial

/-- The staging directory goes away, and what no other builder undoes stays. -/
theorem safe_cleanUp {P : BuildWorld Builder → Prop} (hstable : (site.contract staged).Stable b P)
    (hw : P w) (hstep : ∀ op c w, op.Inside (site.stagingRoot b) → P w →
      (site.contract staged).inv w → P ((sharedDisk Builder).apply b op c w).2) :
    (site.contract staged).Safe b (removeDirAllIfExists (site.stagingRoot b)).run (fun _ => P) w := by
  apply Contract.Safe.within removeDirAllIfExists_within hstable hw
  intro op c w' hop hinv hw' _
  exact ⟨keeps_inside hop hinv c, hstep op c w' hop hw' hinv⟩

theorem stable_true : (site.contract staged).Stable b fun _ => True := fun _ _ _ _ _ => trivial

theorem safe_rollBack (hfilled : ∀ b, site.Filled staged b) {moved : List Path} {error : IndexError}
    {Q : Except IndexError Unit → BuildWorld Builder → Prop} (herror : ∀ e w, Q (.error e) w)
    (hslots : ∀ p ∈ moved, p ∈ site.slots) (hapart : moved.Pairwise Apart) (h : Rolling site b moved w) :
    (site.contract staged).Safe b (rollBack (site.stagingRoot b) moved error) Q w := by
  rw [rollBack_eq]
  apply Contract.Safe.bind
  -- the moves are taken back in the order in which they were made
  refine (safe_removeMoved hfilled hslots hapart h).mono fun cleanups w' _ _ => ?_
  apply Contract.Safe.bind
  refine (safe_cleanUp (P := fun _ => True) stable_true trivial (fun _ _ _ _ _ _ => trivial)).mono ?_
  exact fun last w' _ _ => Contract.Safe.done fun w'' _ _ => herror _ w''

/-! ## The moves -/

/-- A builder between two of its moves: what it has moved is in place, what it has not is staged. -/
structure Loaded (site : BuildSite Builder) (staged : FileTree) (b : Builder) (made todo : List (Path × Path))
    (w : BuildWorld Builder) : Prop where
  manifest : w.mover site.finalManifestPath ≠ some b
  moved : ∀ m ∈ made, w.mover m.2 = some b ∧ get m.2 w.tree = get m.1 staged
  waiting : ∀ m ∈ todo, get m.1 w.tree = get m.1 staged

/-- How far the moves of a builder have come: what has been made is directories. -/
structure Progress (site : BuildSite Builder) (b : Builder) (made todo : List (Path × Path)) : Prop where
  moves : made ++ todo = site.moves b
  slots : ∀ m ∈ made, m.2 ∈ site.slots

variable {made todo : List (Path × Path)} {m : Path × Path}

theorem Progress.mem_made (h : Progress site b made todo) (hm : m ∈ made) : m ∈ site.moves b :=
  h.moves ▸ List.mem_append_left _ hm

theorem Progress.mem_todo (h : Progress site b made todo) (hm : m ∈ todo) : m ∈ site.moves b :=
  h.moves ▸ List.mem_append_right _ hm

theorem sources_apart (site : BuildSite Builder) (b : Builder) :
    (site.moves b).Pairwise fun m m' => Apart m.1 m'.1 := by
  simp [moves, site.apart_lance_index, site.apart_lance_manifest, site.apart_index_manifest]

theorem dests_apart (site : BuildSite Builder) (b : Builder) :
    (site.moves b).Pairwise fun m m' => Apart m.2 m'.2 := by
  simp [moves, site.apart_lance_index, site.apart_lance_manifest, site.apart_index_manifest]

theorem Loaded.holds (h : Loaded site staged b made todo w) (hprogress : Progress site b made todo)
    (hfilled : site.Filled staged b) (hm : m ∈ made) : Holds b m.2 w := by
  obtain ⟨hmover, hcontent⟩ := h.moved m hm
  exact ⟨hmover, (hfilled.full (hprogress.mem_made hm) (hprogress.slots m hm)).congr hcontent⟩

theorem Loaded.rolling (h : Loaded site staged b made todo w) (hprogress : Progress site b made todo)
    (hfilled : site.Filled staged b) : Rolling site b (made.map (·.2)) w := by
  refine ⟨h.manifest, fun p hp => ?_⟩
  obtain ⟨m, hm, rfl⟩ := List.mem_map.mp hp
  exact h.holds hprogress hfilled hm

theorem stable_loaded (hprogress : Progress site b made todo) (hfilled : site.Filled staged b) :
    (site.contract staged).Stable b (Loaded site staged b made todo) := by
  intro w w' hrely _ h
  have hleft : site.LeftAlone b w w' := hrely.2
  refine ⟨fun hmanifest => h.manifest (hleft.mover _ (by simp [finals]) hmanifest), fun m hm => ?_,
    fun m hm => ?_⟩
  · obtain ⟨hmover, hsame⟩ := hleft.held m.2 (hprogress.slots m hm) (h.holds hprogress hfilled hm)
    exact ⟨hmover, hsame.trans (h.moved m hm).2⟩
  · exact (hleft.staging m.1 (below_of_move (hprogress.mem_todo hm))).trans (h.waiting m hm)

/-- The directories for the next move are made, or some of them. -/
theorem Loaded.createDirAll (h : Loaded site staged b made todo w) (hprogress : Progress site b made todo)
    (hp : p ∈ site.finals) (c : FsChoice) :
    Loaded site staged b made todo ((sharedDisk Builder).apply b (.createDirAll p.dropLast) c w).2 := by
  refine ⟨h.manifest, fun m hm => ⟨(h.moved m hm).1, ?_⟩, fun m hm => ?_⟩
  · rw [← (h.moved m hm).2]
    apply get_createDirAll
    exact not_prefix_dropLast hp (site.finals_eq_or_apart hp (final_of_move (hprogress.mem_made hm)))
  · rw [← h.waiting m hm]
    exact get_createDirAll_below hp (below_of_move (hprogress.mem_todo hm)) c

/-- What is in place after the next move. -/
theorem Loaded.moved_next (h : Loaded site staged b made (m :: todo) w)
    (hprogress : Progress site b made (m :: todo)) (hmoved : Moved b m.1 m.2 w w') :
    ∀ m' ∈ made ++ [m], w'.mover m'.2 = some b ∧ get m'.2 w'.tree = get m'.1 staged := by
  intro m' hm'
  have hm : m ∈ site.moves b := hprogress.mem_todo (List.mem_cons_self ..)
  rw [hmoved.mover]
  rcases List.mem_append.mp hm' with hm' | hm'
  · have hapart : Apart m'.2 m.2 := by
      have hpairwise := site.dests_apart b
      rw [← hprogress.moves] at hpairwise
      exact (List.pairwise_append.mp hpairwise).2.2 m' hm' m (List.mem_cons_self ..)
    have hne : m'.2 ≠ m.2 := fun heq => hapart.1 (heq ▸ List.prefix_refl _)
    have hsource : Apart m.1 m'.2 :=
      (site.staging_final b (final_of_move (hprogress.mem_made hm'))).of_below (below_of_move hm)
    rw [Function.update_of_ne hne, hmoved.apart m'.2 hapart.symm hsource]
    exact h.moved m' hm'
  · obtain rfl := List.mem_singleton.mp hm'
    rw [Function.update_self, hmoved.dest]
    exact ⟨rfl, h.waiting m' (List.mem_cons_self ..)⟩

/-- A directory has been moved. -/
theorem Loaded.next (h : Loaded site staged b made (m :: todo) w)
    (hprogress : Progress site b made (m :: todo)) (hmoved : Moved b m.1 m.2 w w')
    (hslot : m.2 ∈ site.slots) : Loaded site staged b (made ++ [m]) todo w' := by
  refine ⟨?_, h.moved_next hprogress hmoved, fun m' hm' => ?_⟩
  · have hne : site.finalManifestPath ≠ m.2 := by
      intro heq
      exact (site.slot_apart_manifest hslot).1 (heq ▸ List.prefix_refl _)
    rw [hmoved.mover, Function.update_of_ne hne]
    exact h.manifest
  · have hapart : Apart m.1 m'.1 := by
      have hpairwise := site.sources_apart b
      rw [← hprogress.moves] at hpairwise
      exact (List.pairwise_cons.mp (List.pairwise_append.mp hpairwise).2.1).1 m' hm'
    have hm'moves : m' ∈ site.moves b := hprogress.mem_todo (List.mem_cons_of_mem _ hm')
    have hdest : Apart m.2 m'.1 :=
      ((site.staging_final b (final_of_move (hprogress.mem_todo (List.mem_cons_self ..)))).of_below
        (below_of_move hm'moves)).symm
    rw [hmoved.apart m'.1 hdest hapart]
    exact h.waiting m' (List.mem_cons_of_mem _ hm')

/-- One move: directories are made, the staged artifact is renamed, and what fails is taken back. -/
theorem safe_move (hfilled : ∀ b, site.Filled staged b)
    {Q : Except IndexError Unit → BuildWorld Builder → Prop} (herror : ∀ e w, Q (.error e) w)
    (hprogress : Progress site b made (m :: todo)) (h : Loaded site staged b made (m :: todo) w)
    (hrenamed : ∀ w₁ w₂, (site.contract staged).inv w₁ → Loaded site staged b made (m :: todo) w₁ →
      rename m.1 m.2 w₁.tree = some w₂.tree → Moved b m.1 m.2 w₁ w₂ →
        (site.contract staged).Keeps b w₁ w₂ ∧
          (site.contract staged).Safe b
            (commitMoves (site.stagingRoot b) (made.map (·.2) ++ [m.2]) todo) Q w₂) :
    (site.contract staged).Safe b (commitMoves (site.stagingRoot b) (made.map (·.2)) (m :: todo)) Q w := by
  have hm : m ∈ site.moves b := hprogress.mem_todo (List.mem_cons_self ..)
  have hstable := stable_loaded hprogress (hfilled b)
  have hback : ∀ error w', Loaded site staged b made (m :: todo) w' →
      (site.contract staged).Safe b (rollBack (site.stagingRoot b) (made.map (·.2)) error) Q w' := by
    intro error w' hw'
    apply safe_rollBack hfilled herror
    · intro p hp
      obtain ⟨m', hm', rfl⟩ := List.mem_map.mp hp
      exact hprogress.slots m' hm'
    · have hpairwise := site.dests_apart b
      rw [← hprogress.moves] at hpairwise
      exact List.pairwise_map.mpr (List.pairwise_append.mp hpairwise).1
    · exact hw'.rolling hprogress (hfilled b)
  rw [commitMoves_cons (final_ne_nil (final_of_move hm))]
  apply Contract.Safe.call hstable h
  intro w₁ c hinv hw₁ _
  refine ⟨keeps_createDirAll (final_of_move hm) hinv c, ?_⟩
  have hmade := hw₁.createDirAll hprogress (final_of_move hm) c
  cases ((sharedDisk Builder).apply b (.createDirAll m.2.dropLast) c w₁).1 with
  | error detail => exact hback _ _ hmade
  | ok _ =>
      apply Contract.Safe.call hstable hmade
      intro w₂ c' hinv' hw₂ _
      have hapart : Apart m.1 m.2 := (site.staging_final b (final_of_move hm)).of_below (below_of_move hm)
      rcases rename_cases (b := b) hapart w₂ c' with ⟨w₃, happly, hrename, hmoved⟩ | happly
      · rw [happly]
        exact hrenamed w₂ w₃ hinv' hw₂ hrename hmoved
      · rw [happly]
        exact ⟨.refl hinv', hback _ _ hw₂⟩

/-- A builder that reports success has placed the version. -/
def Published (site : BuildSite Builder) (staged : FileTree) (b : Builder) (result : Except IndexError Unit)
    (w : BuildWorld Builder) : Prop := result = .ok () → site.Placed staged b w

/-- The move of a directory of the version. -/
theorem safe_moveSlot (hfilled : ∀ b, site.Filled staged b) (hprogress : Progress site b made (m :: todo))
    (hslot : m.2 ∈ site.slots) (h : Loaded site staged b made (m :: todo) w)
    (hrest : ∀ w', Loaded site staged b (made ++ [m]) todo w' →
      (site.contract staged).Safe b (commitMoves (site.stagingRoot b) ((made ++ [m]).map (·.2)) todo)
        (Published site staged b) w') :
    (site.contract staged).Safe b (commitMoves (site.stagingRoot b) (made.map (·.2)) (m :: todo))
      (Published site staged b) w := by
  apply safe_move hfilled (fun _ _ h => by cases h) hprogress h
  intro w₁ w₂ hinv hw₁ hrename hmoved
  have hm : m ∈ site.moves b := hprogress.mem_todo (List.mem_cons_self ..)
  have hfull : Full m.1 w₁.tree :=
    ((hfilled b).full hm hslot).congr (hw₁.waiting m (List.mem_cons_self ..))
  refine ⟨keeps_moved_slot hfilled hslot (below_of_move hm) hfull hrename hmoved hinv, ?_⟩
  have hnext := hrest w₂ (hw₁.next hprogress hmoved hslot)
  rwa [List.map_append] at hnext

/-- All moves are made. -/
theorem placed_of_moved (h : ∀ m ∈ site.moves b, w.mover m.2 = some b ∧ get m.2 w.tree = get m.1 staged) :
    site.Placed staged b w := by
  refine ⟨fun p hp => ?_, fun m hm => (h m hm).2⟩
  obtain ⟨m, hm, rfl⟩ := exists_move hp b
  exact (h m hm).1

/-- The move of the manifest, the last one: from here on the version is placed. -/
theorem safe_moveManifest (hfilled : ∀ b, site.Filled staged b) (hprogress : Progress site b made [m])
    (hmanifest : m.2 = site.finalManifestPath) {m' : Path × Path} (hheld : m' ∈ made)
    (h : Loaded site staged b made [m] w) :
    (site.contract staged).Safe b (commitMoves (site.stagingRoot b) (made.map (·.2)) [m])
      (Published site staged b) w := by
  apply safe_move hfilled (fun _ _ h => by cases h) hprogress h
  intro w₁ w₂ hinv hw₁ hrename hmoved
  have hm : m ∈ site.moves b := hprogress.mem_todo (List.mem_cons_self ..)
  have hplaced : site.Placed staged b w₂ := by
    apply placed_of_moved
    rw [← hprogress.moves]
    exact hw₁.moved_next hprogress hmoved
  have hfree : ∀ b', ¬site.Placed staged b' w₁ :=
    not_placed_of_mover (final_of_move (hprogress.mem_made hheld)) (hw₁.moved m' hheld).1 hw₁.manifest
  constructor
  · apply keeps_at (final_of_move hm) hfree
    · intro hslot
      exact absurd (List.prefix_refl _) (hmanifest ▸ (site.slot_apart_manifest hslot)).1
    · -- whoever moved the manifest is the builder itself
      intro b' hb'
      rw [hmoved.mover, ← hmanifest, Function.update_self] at hb'
      exact Option.some.inj hb' ▸ hplaced
    · exact fun q hq hroot => hmoved.apart q hq (hroot.of_below (below_of_move hm))
    · intro q hq
      rw [hmoved.mover, Function.update_of_ne hq]
    · intro b' hne hb'
      rw [hmoved.mover, Function.update_self] at hb'
      exact absurd (Option.some.inj hb').symm hne
  · refine (safe_cleanUp (P := site.Placed staged b) (fun _ _ hrely _ hw => hrely.1 b hw) hplaced ?_).mono
      fun result w' _ hw' _ => hw'
    exact fun op c w hop hw hinv => (keeps_inside hop hinv c).change b hw

theorem safe_commit (hfilled : ∀ b, site.Filled staged b) (h : Loaded site staged b [] (site.moves b) w) :
    (site.contract staged).Safe b (commit (site.stagingRoot b) (site.moves b))
      (Published site staged b) w := by
  apply safe_moveSlot hfilled ⟨rfl, fun _ hm => by cases hm⟩ (by simp [slots]) h
  intro w₁ hw₁
  apply safe_moveSlot hfilled ⟨rfl, by simp [slots]⟩ (by simp [slots]) hw₁
  intro w₂ hw₂
  apply safe_moveManifest hfilled ⟨rfl, by simp [slots]⟩ rfl (List.mem_cons_self ..) hw₂

/-! ## The checks before -/

/-- The checks only read. -/
def Reads : FsOp → Prop
  | .exists _ => True
  | .isDir _ => True
  | _ => False

theorem ensureTargetIsPublishable_reads (p : Path) : (ensureTargetIsPublishable p).run.Within Reads := by
  refine ⟨trivial, fun found => ?_⟩
  cases found with
  | true => trivial
  | false =>
      unfold parentOf
      split
      · trivial
      · refine ⟨trivial, fun parentFound => ?_⟩
        cases parentFound with
        | false => trivial
        | true =>
            refine ⟨trivial, fun directory => ?_⟩
            cases directory <;> trivial

theorem ensurePublishable_reads (site : BuildSite Builder) : site.ensurePublishable.run.Within Reads := by
  apply Prog.Within.bindExcept (ensureTargetIsPublishable_reads _)
  intro _
  apply Prog.Within.bindExcept (ensureTargetIsPublishable_reads _)
  exact fun _ => ensureTargetIsPublishable_reads _

theorem safe_publishBuild (hfilled : ∀ b, site.Filled staged b)
    (h : Loaded site staged b [] (site.moves b) w) :
    (site.contract staged).Safe b (site.publishBuild b) (Published site staged b) w := by
  have hprogress : Progress site b [] (site.moves b) := ⟨rfl, fun _ hm => by cases hm⟩
  have hstable := stable_loaded hprogress (hfilled b)
  unfold publishBuild
  apply Contract.Safe.bind
  refine (Contract.Safe.within (ensurePublishable_reads site) hstable h ?_).mono ?_
  · intro op c w' hop hinv hw' _
    have hsame : ((sharedDisk Builder).apply b op c w').2 = w' := by
      cases op with
      | «exists» p => rfl
      | isDir p => rfl
      | _ => exact hop.elim
    rw [hsame]
    exact ⟨.refl hinv, hw'⟩
  · intro result w' _ hw'
    cases result with
    | ok _ => exact safe_commit hfilled hw'
    | error error =>
        apply Contract.Safe.bind
        refine (safe_cleanUp (P := fun _ => True) stable_true trivial (fun _ _ _ _ _ _ => trivial)).mono ?_
        exact fun cleanup w' _ _ => Contract.Safe.done fun w'' _ _ h => by cases h

end Steps

/-! ## Every run -/

/-- The builders of the version, each with its staging directory filled. -/
def start (staged : FileTree) : Config fsSignature FileTree Builder (Except IndexError Unit) :=
  ⟨staged, site.publishBuild⟩

/-- The same with the record of who moved what. -/
def startRecorded (staged : FileTree) :
    Config fsSignature (BuildWorld Builder) Builder (Except IndexError Unit) :=
  ⟨⟨staged, fun _ => none⟩, site.publishBuild⟩

theorem run_start [DecidableEq Builder] (staged : FileTree) (turns : List (Builder × FsChoice)) :
    run (disk Builder).step (site.start staged) turns =
      ⟨(run (sharedDisk Builder).step (site.startRecorded staged) turns).world.tree,
        (run (sharedDisk Builder).step (site.startRecorded staged) turns).threads⟩ :=
  Machine.run_forget BuildWorld.tree (fun _ _ _ _ => rfl) (site.startRecorded staged) turns

variable {site} {staged : FileTree} {b : Builder}

theorem safe_startRecorded (hfilled : ∀ b, site.Filled staged b) (b : Builder) :
    (site.contract staged).Safe b ((site.startRecorded staged).threads b) (Published site staged b)
      (site.startRecorded staged).world := by
  apply safe_publishBuild hfilled
  refine ⟨?_, ?_, fun _ _ => rfl⟩
  · intro hmanifest
    cases hmanifest
  · intro m hm
    cases hm

variable [DecidableEq Builder]

theorem kept_run (hfilled : ∀ b, site.Filled staged b) (turns : List (Builder × FsChoice)) :
    (site.contract staged).inv (run (sharedDisk Builder).step (site.startRecorded staged) turns).world ∧
      ∀ b, (site.contract staged).Safe b
        ((run (sharedDisk Builder).step (site.startRecorded staged) turns).threads b)
        (Published site staged b) (run (sharedDisk Builder).step (site.startRecorded staged) turns).world := by
  obtain ⟨hinv, -, hsafe⟩ := Contract.run_safe (K := site.contract staged) (fun _ h => by cases h)
    (safe_startRecorded hfilled) turns (Contract.allowed_of_forall (fun _ _ _ _ => trivial) _ turns)
  exact ⟨hinv, hsafe⟩

/-- A builder that has reported success has placed its version, and it stays placed. -/
theorem placed_run (hfilled : ∀ b, site.Filled staged b) (turns later : List (Builder × FsChoice))
    (hdone : (run (sharedDisk Builder).step (site.startRecorded staged) turns).threads b = .done (.ok ())) :
    site.Placed staged b
      (run (sharedDisk Builder).step (site.startRecorded staged) (turns ++ later)).world := by
  obtain ⟨hinv, hsafe⟩ := kept_run hfilled turns
  have hplaced : site.Placed staged b _ := Contract.post_of_done (hsafe b) hdone hinv rfl
  obtain ⟨-, hchange, -⟩ := Contract.run_safe hinv hsafe later
    (Contract.allowed_of_forall (fun _ _ _ _ => trivial) _ later)
  rw [← run_append] at hchange
  exact hchange b hplaced

/-- Builders of one version exclude each other, whatever fails and wherever one of them stops: after
every run at most one has reported success, and then the version is, whatever runs on, what that
builder had staged. -/
theorem builds_exclude (hfilled : ∀ b, site.Filled staged b) (turns later : List (Builder × FsChoice))
    (hdone : (run (disk Builder).step (site.start staged) turns).threads b = .done (.ok ())) :
    (∀ m ∈ site.moves b,
        get m.2 (run (disk Builder).step (site.start staged) (turns ++ later)).world = get m.1 staged) ∧
      ∀ b', (run (disk Builder).step (site.start staged) (turns ++ later)).threads b' = .done (.ok ()) →
        b' = b := by
  rw [run_start] at hdone
  simp only [run_start]
  have hstays := placed_run hfilled turns later hdone
  refine ⟨hstays.content, fun b' hdone' => ?_⟩
  -- the other one has placed its version too, and a manifest has one mover
  have hplaced' := placed_run hfilled (turns ++ later) [] hdone'
  rw [List.append_nil] at hplaced'
  exact hstays.unique hplaced'

/-- In every run at most one builder has reported success.  From then on the places of the version are as
it had staged them, and no step that anyone takes, be it of a roll-back or of a clean-up, changes one. -/
theorem one_build_publishes (hfilled : ∀ b, site.Filled staged b) (turns : List (Builder × FsChoice)) :
    (∀ b b', (run (disk Builder).step (site.start staged) turns).threads b = .done (.ok ()) →
      (run (disk Builder).step (site.start staged) turns).threads b' = .done (.ok ()) → b' = b) ∧
    ∀ b, (run (disk Builder).step (site.start staged) turns).threads b = .done (.ok ()) →
      ∀ (later : List (Builder × FsChoice)) (turn : Builder × FsChoice), ∀ m ∈ site.moves b,
        get m.2 (run (disk Builder).step (site.start staged) (turns ++ later)).world = get m.1 staged ∧
        get m.2 ((disk Builder).step
            (run (disk Builder).step (site.start staged) (turns ++ later)) turn).world =
          get m.2 (run (disk Builder).step (site.start staged) (turns ++ later)).world := by
  refine ⟨fun b b' hdone hdone' => ?_, fun b hdone later turn m hm => ?_⟩
  · rw [run_start] at hdone hdone'
    exact (placed_run hfilled turns [] hdone).unique (placed_run hfilled turns [] hdone')
  · have hstep : (disk Builder).step (run (disk Builder).step (site.start staged) (turns ++ later)) turn =
        run (disk Builder).step (site.start staged) (turns ++ (later ++ [turn])) := by
      rw [← List.append_assoc, run_append _ (turns ++ later)]
      rfl
    rw [hstep]
    rw [run_start] at hdone
    simp only [run_start]
    have hbefore := (placed_run hfilled turns later hdone).content m hm
    have hafter := (placed_run hfilled turns (later ++ [turn]) hdone).content m hm
    exact ⟨hbefore, hafter.trans hbefore.symm⟩

/-- Two builders of version 1. -/
def twoBuilders : BuildSite Bool where
  artifactRoot := []
  version := 1
  suffix b := if b then "2" else "1"
  suffix_injective := by decide

/-- What a builder stages: one file for each part. -/
def stagedBuild (content : List UInt8) : FileTree :=
  .dir [("lance", .dir [("v1", .dir [("shard_0", .dir [("data", .file content)])])]),
    ("index", .dir [("v1", .dir [("shard_0", .dir [("documents.json", .file content)])]),
      ("versions", .dir [("1", .dir [("manifest.json", .file content)])])])]

def twoStaged : FileTree :=
  .dir [(".index-build-staging-1", stagedBuild [1]), (".index-build-staging-2", stagedBuild [2])]

theorem filled_twoStaged (b : Bool) : twoBuilders.Filled twoStaged b := by
  cases b with
  | false => exact ⟨⟨_, _, rfl⟩, ⟨_, _, rfl⟩, ⟨_, rfl⟩⟩
  | true => exact ⟨⟨_, _, rfl⟩, ⟨_, _, rfl⟩, ⟨_, rfl⟩⟩

/-- Both builders see that the version is not there yet, then the second one moves. -/
def secondFirst : List (Bool × FsChoice) :=
  List.replicate 6 (false, ⟨false, "", none, 0⟩) ++ List.replicate 17 (true, ⟨false, "", none, 0⟩)

/-- The first one goes on and fails at its first move. -/
def firstFails : List (Bool × FsChoice) := List.replicate 7 (false, ⟨false, "not empty", none, 0⟩)

theorem builds_exclude_secondFirst :
    (∀ m ∈ twoBuilders.moves true,
        get m.2 (run (disk Bool).step (twoBuilders.start twoStaged) (secondFirst ++ firstFails)).world =
          get m.1 twoStaged) ∧
      ∀ b, (run (disk Bool).step (twoBuilders.start twoStaged) (secondFirst ++ firstFails)).threads b =
        .done (.ok ()) → b = true :=
  builds_exclude filled_twoStaged secondFirst firstFails rfl

theorem one_build_publishes_secondFirst :
    (run (disk Bool).step (twoBuilders.start twoStaged) secondFirst).threads true = .done (.ok ()) ∧
      ∀ turn, ∀ m ∈ twoBuilders.moves true,
        get m.2 (run (disk Bool).step (twoBuilders.start twoStaged) (secondFirst ++ firstFails)).world =
          get m.1 twoStaged ∧
        get m.2 ((disk Bool).step
            (run (disk Bool).step (twoBuilders.start twoStaged) (secondFirst ++ firstFails)) turn).world =
          get m.2 (run (disk Bool).step (twoBuilders.start twoStaged) (secondFirst ++ firstFails)).world :=
  ⟨rfl, (one_build_publishes filled_twoStaged secondFirst).2 true rfl firstFails⟩

end BuildSite

end LTSearch
