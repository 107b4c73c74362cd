/-
# LTSearch.Query.ShardTree -- the size of a shard directory whose links are followed

Before a shard is queried, its directory is measured: every path below it is resolved, must stay
inside the artifact root and adds its size.  A directory that is met again is reported as a cycle of
links, also where two links merely share it.
-/
import LTSearch.Foundation.Checks
import LTSearch.Foundation.FileTree
import LTSearch.Foundation.Walk

namespace LTSearch

open LTSearch.Foundation
open LTSearch.Foundation.FileTree (Path)

/-! ## The file system and what the walk sees of it -/

/-- What `fs::metadata` tells: a file, a directory, or neither. -/
inductive FsMetadata where
  | file (len : UInt64)
  | dir
  | other

/-- Directories, files and links, as the system answers for them.  Every answer may be an error, also
that for one entry of a directory. -/
structure LinkGraph where
  canonicalize : Path → Except String Path
  metadata : Path → Except String FsMetadata
  readDir : Path → Except String (List (Except String String))
  directories : Finset Path
  mem_directories {path : Path} : metadata path = .ok .dir → path ∈ directories

/-- The errors of `inspect_path_tree_within_artifact_root`. -/
inductive InspectError where
  | canonicalizeRoot (artifactRoot : Path) (source : String)
  | canonicalize (path : Path) (source : String)
  | escapes (canonicalPath : Path)
  | inspect (canonicalPath : Path) (source : String)
  | cycle (canonicalPath : Path)
  | readDir (canonicalPath : Path) (source : String)
  | entry (canonicalPath : Path) (source : String)

/-- `Path::display`, of an absolute path -/
def displayPath (path : Path) : String := "/" ++ "/".intercalate path

/-- The message of `SearchError::Execution`. -/
def InspectError.message : InspectError → String
  | .canonicalizeRoot path source =>
      "failed to canonicalize artifact root " ++ displayPath path ++ ": " ++ source
  | .canonicalize path source =>
      "failed to canonicalize local LanceDB documents path " ++ displayPath path ++ ": " ++ source
  | .escapes path =>
      "resolved local LanceDB documents path escapes artifact root: " ++ displayPath path
  | .inspect path source =>
      "failed to inspect local LanceDB documents path " ++ displayPath path ++ ": " ++ source
  | .cycle path =>
      "local LanceDB artifact path contains a symlink cycle under artifact root: " ++
        displayPath path
  | .readDir path source =>
      "failed to read local LanceDB artifact directory " ++ displayPath path ++ ": " ++ source
  | .entry path source =>
      "failed to read local LanceDB artifact directory entry in " ++ displayPath path ++ ": " ++
        source

namespace LinkGraph

variable (fs : LinkGraph)

/-- `entry.path()`, of an entry of a directory -/
def entryPath (canonicalPath : Path) : Except String String → Except InspectError Path
  | .error source => .error (.entry canonicalPath source)
  | .ok name => .ok (canonicalPath ++ [name])

/-- The paths pushed for a directory.  The last one pushed is on top of the stack. -/
def listing (canonicalPath : Path) : Except InspectError (List Path) :=
  match fs.readDir canonicalPath with
  | .error source => .error (.readDir canonicalPath source)
  | .ok entries => do
      let paths ← entries.mapM (entryPath canonicalPath)
      return paths.reverse

/-- One turn of the loop, up to `visited_dirs`. -/
def lookAt (canonicalArtifactRoot path : Path) : Visit Path Path InspectError :=
  match fs.canonicalize path with
  | .error source => .stop (.canonicalize path source)
  | .ok canonicalPath =>
      if ¬canonicalArtifactRoot <+: canonicalPath then .stop (.escapes canonicalPath)
      else
        match fs.metadata canonicalPath with
        | .error source => .stop (.inspect canonicalPath source)
        | .ok (.file len) => .leaf len.toNat
        | .ok .dir => .branch canonicalPath (fs.listing canonicalPath)
        | .ok .other => .leaf 0

/-- What is seen inside a directory's place. -/
theorem lookAt_branch {canonicalArtifactRoot path dir : Path}
    {below : Except InspectError (List Path)}
    (h : fs.lookAt canonicalArtifactRoot path = .branch dir below) :
    fs.canonicalize path = .ok dir ∧ canonicalArtifactRoot <+: dir ∧
      fs.metadata dir = .ok .dir ∧ below = fs.listing dir := by
  unfold lookAt at h
  split at h
  · cases h
  · next canonicalPath hcanonical =>
    split at h
    · cases h
    · next hinside =>
      split at h
      · cases h
      · cases h
      · next hdir =>
        cases h
        exact ⟨hcanonical, not_not.mp hinside, hdir, rfl⟩
      · cases h

/-- The graph that is walked. -/
def tree (canonicalArtifactRoot : Path) : Walk Path Path InspectError where
  look := fs.lookAt canonicalArtifactRoot
  again := .cycle
  branches := fs.directories
  branch_mem h := fs.mem_directories (fs.lookAt_branch h).2.2.1

/-- `total_bytes += metadata.len()`, which wraps in a release build -/
def addBytes (totalBytes : UInt64) (len : Nat) : UInt64 := totalBytes + UInt64.ofNat len

/-- `inspect_path_tree_within_artifact_root` -/
def inspectPathTreeWithinArtifactRoot (artifactRoot root : Path) : Except InspectError UInt64 :=
  match fs.canonicalize artifactRoot with
  | .error source => .error (.canonicalizeRoot artifactRoot source)
  | .ok canonicalArtifactRoot => (fs.tree canonicalArtifactRoot).walk addBytes [root] ∅ 0

/-! ## What there is to see, whatever the walk makes of it -/

/-- The second path is an entry of the directory that the first one resolves to. -/
def Entry (p q : Path) : Prop :=
  ∃ dir entries name, fs.canonicalize p = .ok dir ∧ fs.metadata dir = .ok .dir ∧
    fs.readDir dir = .ok entries ∧ .ok name ∈ entries ∧ q = dir ++ [name]

/-- A path is reached from another one. -/
def Reached (p q : Path) : Prop := Relation.ReflTransGen fs.Entry p q

/-- A path resolves to something inside a directory. -/
def Inside (canonicalArtifactRoot path : Path) : Prop :=
  ∃ canonicalPath, fs.canonicalize path = .ok canonicalPath ∧ canonicalArtifactRoot <+: canonicalPath

/-- A directory that is reached can reach itself. -/
def Cyclic (root : Path) : Prop :=
  ∃ p q dir, fs.Reached root p ∧ Relation.TransGen fs.Entry p q ∧
    fs.canonicalize p = .ok dir ∧ fs.canonicalize q = .ok dir ∧ fs.metadata dir = .ok .dir

/-- The sizes of the files under some paths, one for every path on which a file is reached.  What is
neither a file nor a directory counts nothing. -/
inductive FileSizes : List Path → List Nat → Prop
  | nil : FileSizes [] []
  | file {p c : Path} {len : UInt64} {pending : List Path} {sizes : List Nat} :
      fs.canonicalize p = .ok c → fs.metadata c = .ok (.file len) → FileSizes pending sizes →
      FileSizes (p :: pending) (len.toNat :: sizes)
  | other {p c : Path} {pending : List Path} {sizes : List Nat} :
      fs.canonicalize p = .ok c → fs.metadata c = .ok .other → FileSizes pending sizes →
      FileSizes (p :: pending) (0 :: sizes)
  | dir {p c : Path} {names : List String} {pending : List Path} {sizes sizes' : List Nat} :
      fs.canonicalize p = .ok c → fs.metadata c = .ok .dir →
      fs.readDir c = .ok (names.map .ok) →
      FileSizes (names.map fun name => c ++ [name]).reverse sizes → FileSizes pending sizes' →
      FileSizes (p :: pending) (sizes ++ sizes')

/-- What inspecting a shard tree is for. -/
structure InspectsExactly (artifactRoot root : Path) : Prop where
  of_ok {bytes : UInt64} : fs.inspectPathTreeWithinArtifactRoot artifactRoot root = .ok bytes →
    ∃ canonicalArtifactRoot, fs.canonicalize artifactRoot = .ok canonicalArtifactRoot ∧
      (∀ path, fs.Reached root path → fs.Inside canonicalArtifactRoot path) ∧
      ∃ sizes, fs.FileSizes [root] sizes ∧ bytes.toNat = sizes.sum
  of_escapes {canonicalPath : Path} :
    fs.inspectPathTreeWithinArtifactRoot artifactRoot root = .error (.escapes canonicalPath) →
    ∃ canonicalArtifactRoot path, fs.canonicalize artifactRoot = .ok canonicalArtifactRoot ∧
      fs.Reached root path ∧ fs.canonicalize path = .ok canonicalPath ∧
      ¬canonicalArtifactRoot <+: canonicalPath
  of_cycle {dir : Path} :
    fs.inspectPathTreeWithinArtifactRoot artifactRoot root = .error (.cycle dir) → fs.Cyclic root

variable {fs : LinkGraph}

/-! ## Entries and listings -/

/-- What is an entry depends only on what a path resolves to. -/
theorem Entry.of_canonicalize {p p' q : Path} (h : fs.Entry p q)
    (heq : fs.canonicalize p = fs.canonicalize p') : fs.Entry p' q := by
  obtain ⟨dir, entries, name, hcanonical, hrest⟩ := h
  exact ⟨dir, entries, name, heq ▸ hcanonical, hrest⟩

/-- Entries have paths when all of them have names. -/
theorem mapM_entryPath {dir : Path} {entries : List (Except String String)} {paths : List Path} :
    entries.mapM (entryPath dir) = .ok paths ↔
      ∃ names : List String, entries = names.map .ok ∧
        paths = names.map fun name => dir ++ [name] := by
  induction entries generalizing paths with
  | nil =>
      constructor
      · intro h
        cases h
        exact ⟨[], rfl, rfl⟩
      · rintro ⟨names, hnames, rfl⟩
        cases names with
        | nil => rfl
        | cons name names => cases hnames
  | cons entry entries ih =>
      rw [List.mapM_cons, bind_eq_ok]
      constructor
      · rintro ⟨path, hpath, h⟩
        obtain ⟨rest, hrest, h⟩ := bind_eq_ok.mp h
        obtain ⟨names, rfl, rfl⟩ := ih.mp hrest
        cases h
        cases entry with
        | error source => cases hpath
        | ok name =>
            cases hpath
            exact ⟨name :: names, rfl, rfl⟩
      · rintro ⟨names, hnames, rfl⟩
        cases names with
        | nil => cases hnames
        | cons name names =>
            cases hnames
            exact ⟨dir ++ [name], rfl, bind_eq_ok.mpr ⟨_, ih.mpr ⟨names, rfl, rfl⟩, rfl⟩⟩

/-- A directory is listed when it can be read and all its entries can. -/
theorem listing_eq_ok {dir : Path} {below : List Path} :
    fs.listing dir = .ok below ↔
      ∃ names : List String, fs.readDir dir = .ok (names.map .ok) ∧
        below = (names.map fun name => dir ++ [name]).reverse := by
  unfold listing
  split
  · next source hread =>
    constructor
    · intro h
      cases h
    · rintro ⟨names, hnames, -⟩
      rw [hread] at hnames
      cases hnames
  · next entries hread =>
    rw [bind_eq_ok]
    constructor
    · rintro ⟨paths, hpaths, h⟩
      obtain ⟨names, rfl, rfl⟩ := mapM_entryPath.mp hpaths
      cases h
      exact ⟨names, hread, rfl⟩
    · rintro ⟨names, hnames, rfl⟩
      rw [hread] at hnames
      cases hnames
      exact ⟨_, mapM_entryPath.mpr ⟨names, rfl, rfl⟩, rfl⟩

/-! ## What the walk sees is what there is -/

variable {canonicalArtifactRoot : Path}

theorem lookAt_leaf {path : Path} {size : Nat}
    (h : fs.lookAt canonicalArtifactRoot path = .leaf size) :
    ∃ c, fs.canonicalize path = .ok c ∧ canonicalArtifactRoot <+: c ∧
      ((∃ len, fs.metadata c = .ok (.file len) ∧ size = len.toNat) ∨
        fs.metadata c = .ok .other ∧ size = 0) := by
  unfold lookAt at h
  split at h
  · cases h
  · next c hcanonical =>
    split at h
    · cases h
    · next hinside =>
      refine ⟨c, hcanonical, not_not.mp hinside, ?_⟩
      split at h
      · cases h
      · next len hfile =>
        cases h
        exact .inl ⟨len, hfile, rfl⟩
      · cases h
      · next hother =>
        cases h
        exact .inr ⟨hother, rfl⟩

/-- What stops the walk at a place: never a cycle, and an escape only where the path leaves the root. -/
theorem lookAt_stop {path : Path} {e : InspectError}
    (h : fs.lookAt canonicalArtifactRoot path = .stop e) :
    (∀ dir, e ≠ .cycle dir) ∧
      ∀ c, e = .escapes c → fs.canonicalize path = .ok c ∧ ¬canonicalArtifactRoot <+: c := by
  unfold lookAt at h
  split at h
  · cases h
    exact ⟨nofun, nofun⟩
  · next c hcanonical =>
    split at h
    · next hinside =>
      cases h
      refine ⟨nofun, fun c' heq => ?_⟩
      cases heq
      exact ⟨hcanonical, hinside⟩
    · split at h
      · cases h
        exact ⟨nofun, nofun⟩
      all_goals cases h

/-- The same of what a directory that cannot be listed says. -/
theorem listing_error {dir : Path} {e : InspectError} (h : fs.listing dir = .error e) :
    (∀ dir', e ≠ .cycle dir') ∧ ∀ c, e ≠ .escapes c := by
  unfold listing at h
  split at h
  · cases h
    exact ⟨nofun, nofun⟩
  · next entries hread =>
    have hentries : ∀ (entries : List (Except String String)) e,
        entries.mapM (entryPath dir) = .error e → ∃ source, e = .entry dir source := by
      intro entries
      induction entries with
      | nil => exact nofun
      | cons entry entries ih =>
          intro e he
          rw [List.mapM_cons] at he
          cases entry with
          | error source =>
              cases he
              exact ⟨source, rfl⟩
          | ok name =>
              cases hrest : entries.mapM (entryPath dir) with
              | error e' =>
                  rw [hrest] at he
                  cases he
                  exact ih _ hrest
              | ok paths =>
                  rw [hrest] at he
                  cases he
    cases hpaths : entries.mapM (entryPath dir) with
    | error e' =>
        rw [hpaths] at h
        cases h
        obtain ⟨source, rfl⟩ := hentries entries _ hpaths
        exact ⟨nofun, nofun⟩
    | ok paths =>
        rw [hpaths] at h
        cases h

/-- What is below a place is an entry of it. -/
theorem entry_of_below {p q : Path} (h : (fs.tree canonicalArtifactRoot).Below p q) :
    fs.Entry p q := by
  obtain ⟨dir, below, hlook, hq⟩ := h
  obtain ⟨hcanonical, -, hdir, hbelow⟩ := fs.lookAt_branch hlook
  obtain ⟨names, hread, rfl⟩ := listing_eq_ok.mp hbelow.symm
  obtain ⟨name, hname, rfl⟩ := List.mem_map.mp (List.mem_reverse.mp hq)
  exact ⟨dir, _, name, hcanonical, hdir, hread, List.mem_map_of_mem hname, rfl⟩

theorem reached_of_below {p q : Path}
    (h : Relation.ReflTransGen (fs.tree canonicalArtifactRoot).Below p q) : fs.Reached p q :=
  Relation.ReflTransGen.mono (fun _ _ => entry_of_below) _ _ h

/-- A path below a directory is below one of its entries, or the directory itself. -/
theorem reached_dir {p q dir : Path} {names : List String} (h : fs.Reached p q)
    (hcanonical : fs.canonicalize p = .ok dir) (hread : fs.readDir dir = .ok (names.map .ok)) :
    p = q ∨ ∃ r ∈ (names.map fun name => dir ++ [name]).reverse, fs.Reached r q := by
  rcases Relation.ReflTransGen.cases_head h with rfl | ⟨r, hentry, hreach⟩
  · exact .inl rfl
  · obtain ⟨dir', entries, name, hcanonical', -, hread', hname, rfl⟩ := hentry
    rw [hcanonical] at hcanonical'
    cases hcanonical'
    rw [hread] at hread'
    cases hread'
    obtain ⟨name', hname', heq⟩ := List.mem_map.mp hname
    cases heq
    exact .inr ⟨_, List.mem_reverse.mpr (List.mem_map_of_mem hname'), hreach⟩

/-- Nothing is reached from what is no directory. -/
theorem eq_of_reached {p q c : Path} (h : fs.Reached p q) (hcanonical : fs.canonicalize p = .ok c)
    (hmetadata : fs.metadata c ≠ .ok .dir) : p = q := by
  rcases Relation.ReflTransGen.cases_head h with rfl | ⟨r, hentry, -⟩
  · rfl
  · obtain ⟨dir, entries, name, hcanonical', hdir, -⟩ := hentry
    rw [hcanonical] at hcanonical'
    cases hcanonical'
    exact absurd hdir hmetadata

/-- The leaves of the walk are the files on all paths, and everything is inside the root. -/
theorem fileSizes_of_leaves {pending : List Path} {sizes : List Nat}
    (h : (fs.tree canonicalArtifactRoot).Leaves pending sizes) :
    fs.FileSizes pending sizes ∧
      ∀ p ∈ pending, ∀ q, fs.Reached p q → fs.Inside canonicalArtifactRoot q := by
  induction h with
  | nil => exact ⟨.nil, nofun⟩
  | @leaf p size pending sizes hlook _ ih =>
      obtain ⟨c, hcanonical, hinside, hkind⟩ := lookAt_leaf hlook
      have hdir : fs.metadata c ≠ .ok .dir := by
        rcases hkind with ⟨len, hfile, -⟩ | ⟨hother, -⟩
        · rw [hfile]
          exact nofun
        · rw [hother]
          exact nofun
      constructor
      · rcases hkind with ⟨len, hfile, rfl⟩ | ⟨hother, rfl⟩
        · exact .file hcanonical hfile ih.1
        · exact .other hcanonical hother ih.1
      · intro q hq r hreach
        rcases List.mem_cons.mp hq with rfl | hq
        · obtain rfl := eq_of_reached hreach hcanonical hdir
          exact ⟨c, hcanonical, hinside⟩
        · exact ih.2 q hq r hreach
  | @branch p dir below pending sizes sizes' hlook _ _ ihbelow ihrest =>
      obtain ⟨hcanonical, hinside, hdir, hbelow⟩ := fs.lookAt_branch hlook
      obtain ⟨names, hread, rfl⟩ := listing_eq_ok.mp hbelow.symm
      refine ⟨.dir hcanonical hdir hread ihbelow.1 ihrest.1, fun q hq r hreach => ?_⟩
      rcases List.mem_cons.mp hq with rfl | hq
      · rcases reached_dir hreach hcanonical hread with rfl | ⟨s, hs, hreach⟩
        · exact ⟨dir, hcanonical, hinside⟩
        · exact ihbelow.2 s hs r hreach
      · exact ihrest.2 q hq r hreach

/-- Where everything is inside the root, the files on all paths are the leaves of the walk. -/
theorem leaves_of_fileSizes {pending : List Path} {sizes : List Nat}
    (h : fs.FileSizes pending sizes)
    (hinside : ∀ p ∈ pending, ∀ q, fs.Reached p q → fs.Inside canonicalArtifactRoot q) :
    (fs.tree canonicalArtifactRoot).Leaves pending sizes := by
  have hroot : ∀ {p c : Path} {pending : List Path}, fs.canonicalize p = .ok c →
      (∀ q ∈ p :: pending, ∀ r, fs.Reached q r → fs.Inside canonicalArtifactRoot r) →
      canonicalArtifactRoot <+: c := by
    intro p c pending hcanonical hinside
    obtain ⟨c', hcanonical', hc'⟩ := hinside p List.mem_cons_self p .refl
    rw [hcanonical] at hcanonical'
    cases hcanonical'
    exact hc'
  induction h with
  | nil => exact .nil
  | @file p c len pending sizes hcanonical hfile _ ih =>
      refine .leaf ?_ (ih fun q hq => hinside q (List.mem_cons_of_mem _ hq))
      show fs.lookAt canonicalArtifactRoot p = _
      simp only [lookAt, hcanonical, hroot hcanonical hinside, not_true_eq_false, if_false, hfile]
  | @other p c pending sizes hcanonical hother _ ih =>
      refine .leaf ?_ (ih fun q hq => hinside q (List.mem_cons_of_mem _ hq))
      show fs.lookAt canonicalArtifactRoot p = _
      simp only [lookAt, hcanonical, hroot hcanonical hinside, not_true_eq_false, if_false, hother]
  | @dir p c names pending sizes sizes' hcanonical hdir hread _ _ ihbelow ihrest =>
      have hlook : (fs.tree canonicalArtifactRoot).look p =
          .branch c (.ok (names.map fun name => c ++ [name]).reverse) := by
        show fs.lookAt canonicalArtifactRoot p = _
        simp only [lookAt, hcanonical, hroot hcanonical hinside, not_true_eq_false, if_false, hdir,
          listing_eq_ok.mpr ⟨names, hread, rfl⟩]
      apply Walk.Leaves.branch hlook
      · apply ihbelow
        intro q hq r hreach
        obtain ⟨name, hname, rfl⟩ := List.mem_map.mp (List.mem_reverse.mp hq)
        refine hinside p List.mem_cons_self r (.head ?_ hreach)
        exact ⟨c, _, name, hcanonical, hdir, hread, List.mem_map_of_mem hname, rfl⟩
      · exact ihrest fun q hq => hinside q (List.mem_cons_of_mem _ hq)

/-- Below a path whose files are finitely many, every chain of entries ends. -/
theorem acc_of_fileSizes {pending : List Path} {sizes : List Nat} (h : fs.FileSizes pending sizes) :
    ∀ p ∈ pending, Acc (fun q p => fs.Entry p q) p := by
  have hleaf : ∀ {p c : Path}, fs.canonicalize p = .ok c → fs.metadata c ≠ .ok .dir →
      Acc (fun q p => fs.Entry p q) p := by
    intro p c hcanonical hmetadata
    refine ⟨p, fun q hentry => ?_⟩
    obtain ⟨dir, entries, name, hcanonical', hdir, -⟩ := hentry
    rw [hcanonical] at hcanonical'
    cases hcanonical'
    exact absurd hdir hmetadata
  induction h with
  | nil => exact nofun
  | file hcanonical hfile _ ih =>
      intro q hq
      rcases List.mem_cons.mp hq with rfl | hq
      · apply hleaf hcanonical
        rw [hfile]
        exact nofun
      · exact ih q hq
  | other hcanonical hother _ ih =>
      intro q hq
      rcases List.mem_cons.mp hq with rfl | hq
      · apply hleaf hcanonical
        rw [hother]
        exact nofun
      · exact ih q hq
  | dir hcanonical hdir hread _ _ ihbelow ihrest =>
      intro q hq
      rcases List.mem_cons.mp hq with rfl | hq
      · refine ⟨q, fun r hentry => ?_⟩
        obtain ⟨dir', entries, name, hcanonical', -, hread', hname, rfl⟩ := hentry
        rw [hcanonical] at hcanonical'
        cases hcanonical'
        rw [hread] at hread'
        cases hread'
        obtain ⟨name', hname', heq⟩ := List.mem_map.mp hname
        cases heq
        exact ihbelow _ (List.mem_reverse.mpr (List.mem_map_of_mem hname'))
      · exact ihrest q hq

/-- A path of which all files have been reached leads to no directory that reaches itself. -/
theorem not_cyclic_of_fileSizes {root : Path} {sizes : List Nat} (h : fs.FileSizes [root] sizes) :
    ¬fs.Cyclic root := by
  rintro ⟨p, q, dir, hreach, hcycle, hp, hq, -⟩
  have hroot := acc_of_fileSizes h root List.mem_cons_self
  have hacc : Acc (Relation.TransGen fun q p => fs.Entry p q) p := by
    apply Acc.transGen
    clear hcycle hp
    induction hreach with
    | refl => exact hroot
    | tail _ hentry ih => exact ih.inv hentry
  -- the first entry on the way from the directory to itself is reached from itself
  obtain ⟨r, hentry, hrest⟩ := Relation.TransGen.head'_iff.mp hcycle
  have hself : Relation.TransGen fs.Entry r r :=
    Relation.TransGen.tail' hrest (hentry.of_canonicalize (hp.trans hq.symm))
  have hirrefl : ∀ s, Acc (Relation.TransGen fun q p => fs.Entry p q) s →
      ¬Relation.TransGen (fun q p => fs.Entry p q) s s := by
    intro s hs
    induction hs with
    | intro s _ ih => exact fun hcycle => ih s hcycle hcycle
  exact hirrefl r (hacc.inv (.single hentry)) (Relation.transGen_swap.mpr hself)

/-- The files on all paths are determined by where one begins. -/
theorem FileSizes.unique {pending : List Path} {sizes sizes' : List Nat}
    (h : fs.FileSizes pending sizes) (h' : fs.FileSizes pending sizes') : sizes = sizes' := by
  induction h generalizing sizes' with
  | nil =>
      cases h'
      rfl
  | file hcanonical hfile _ ih =>
      cases h' with
      | file hcanonical' hfile' hrest =>
          cases hcanonical.symm.trans hcanonical'
          cases hfile.symm.trans hfile'
          rw [ih hrest]
      | other hcanonical' hother' hrest =>
          cases hcanonical.symm.trans hcanonical'
          cases hfile.symm.trans hother'
      | dir hcanonical' hdir' hread' hbelow hrest =>
          cases hcanonical.symm.trans hcanonical'
          cases hfile.symm.trans hdir'
  | other hcanonical hother _ ih =>
      cases h' with
      | file hcanonical' hfile' hrest =>
          cases hcanonical.symm.trans hcanonical'
          cases hother.symm.trans hfile'
      | other hcanonical' hother' hrest => rw [ih hrest]
      | dir hcanonical' hdir' hread' hbelow hrest =>
          cases hcanonical.symm.trans hcanonical'
          cases hother.symm.trans hdir'
  | @dir p c names pending sizes sizes' hcanonical hdir hread _ _ ihbelow ihrest =>
      cases h' with
      | file hcanonical' hfile' hrest =>
          cases hcanonical.symm.trans hcanonical'
          cases hdir.symm.trans hfile'
      | other hcanonical' hother' hrest =>
          cases hcanonical.symm.trans hcanonical'
          cases hdir.symm.trans hother'
      | @dir _ c' names' _ _ _ hcanonical' hdir' hread' hbelow hrest =>
          cases hcanonical.symm.trans hcanonical'
          have hnames : names = names' :=
            List.map_injective_iff.mpr (fun _ _ => Except.ok.inj)
              (Except.ok.inj (hread.symm.trans hread'))
          subst hnames
          rw [ihbelow hbelow, ihrest hrest]

/-! ## When an inspection is exact -/

theorem toNat_foldl_addBytes (sizes : List Nat) (totalBytes : UInt64) :
    (sizes.foldl addBytes totalBytes).toNat = (totalBytes.toNat + sizes.sum) % 2 ^ 64 := by
  induction sizes generalizing totalBytes with
  | nil => exact (Nat.mod_eq_of_lt totalBytes.toNat_lt).symm
  | cons size sizes ih =>
      rw [List.foldl_cons, ih, List.sum_cons, addBytes, UInt64.toNat_add, UInt64.toNat_ofNat',
        ← Nat.add_assoc]
      omega

/-- In the order of the walk, no directory is met a second time before a path that stops it: one that
leaves the root, or that cannot be resolved, inspected or listed. -/
def StopsBeforeSharing (fs : LinkGraph) (canonicalArtifactRoot root : Path) : Prop :=
  ∀ i j dir, i < j → (fs.tree canonicalArtifactRoot).Meets [root] i dir →
    (fs.tree canonicalArtifactRoot).Meets [root] j dir →
    ∃ k < j, ∃ e, (fs.tree canonicalArtifactRoot).Stops [root] k e

/-- What tells sharing from a cycle, and a total that fits into 64 bits. -/
structure Distinguishable (fs : LinkGraph) (artifactRoot root : Path) : Prop where
  cyclic_or {canonicalArtifactRoot : Path} :
    fs.canonicalize artifactRoot = .ok canonicalArtifactRoot →
    fs.Cyclic root ∨ fs.StopsBeforeSharing canonicalArtifactRoot root
  fits {canonicalArtifactRoot : Path} :
    fs.canonicalize artifactRoot = .ok canonicalArtifactRoot →
    (∀ path, fs.Reached root path → fs.Inside canonicalArtifactRoot path) →
    ∀ sizes, fs.FileSizes [root] sizes → sizes.sum < 2 ^ 64

theorem inspect_eq {artifactRoot : Path}
    (h : fs.canonicalize artifactRoot = .ok canonicalArtifactRoot) (root : Path) :
    fs.inspectPathTreeWithinArtifactRoot artifactRoot root =
      (fs.tree canonicalArtifactRoot).walk addBytes [root] ∅ 0 := by
  rw [inspectPathTreeWithinArtifactRoot, h]

/-- Past the artifact root, only the walk succeeds or reports an escape or a cycle. -/
theorem exists_canonicalArtifactRoot {artifactRoot root : Path} {result : Except InspectError UInt64}
    (h : fs.inspectPathTreeWithinArtifactRoot artifactRoot root = result)
    (hresult : ∀ source, result ≠ .error (.canonicalizeRoot artifactRoot source)) :
    ∃ canonicalArtifactRoot, fs.canonicalize artifactRoot = .ok canonicalArtifactRoot ∧
      (fs.tree canonicalArtifactRoot).walk addBytes [root] ∅ 0 = result := by
  unfold inspectPathTreeWithinArtifactRoot at h
  split at h
  · next source _ => exact absurd h.symm (hresult source)
  · next canonicalArtifactRoot hroot => exact ⟨canonicalArtifactRoot, hroot, h⟩

/-- A stop on the way is no cycle, and an escape only where a path leaves the root. -/
theorem of_stops {root : Path} {n : Nat} {e : InspectError}
    (h : (fs.tree canonicalArtifactRoot).Stops [root] n e) :
    (∀ dir, e ≠ .cycle dir) ∧ ∀ c, e = .escapes c →
      ∃ path, fs.Reached root path ∧ fs.canonicalize path = .ok c ∧ ¬canonicalArtifactRoot <+: c := by
  obtain ⟨p, hplace, hlook | ⟨dir, hlook⟩⟩ := h
  · obtain ⟨q, hq, hreach⟩ := Walk.reached_of_nthPlace hplace
    obtain rfl := List.mem_singleton.mp hq
    obtain ⟨hcycle, hescapes⟩ := lookAt_stop hlook
    exact ⟨hcycle, fun c he => ⟨p, reached_of_below hreach, hescapes c he⟩⟩
  · obtain ⟨-, -, -, hlisting⟩ := fs.lookAt_branch hlook
    obtain ⟨hcycle, hescapes⟩ := listing_error hlisting.symm
    exact ⟨hcycle, fun c he => absurd he (hescapes c)⟩

/-- A directory that cannot be listed stops the walk where it is met first. -/
theorem stops_of_meets {root dir : Path} {i j : Nat} {e : InspectError}
    (hi : (fs.tree canonicalArtifactRoot).Meets [root] i dir)
    (hj : (fs.tree canonicalArtifactRoot).Meets [root] j dir)
    (hstops : (fs.tree canonicalArtifactRoot).Stops [root] j e) :
    (fs.tree canonicalArtifactRoot).Stops [root] i e := by
  obtain ⟨p, below, hplace, hlook⟩ := hi
  obtain ⟨q, below', hplace', hlook'⟩ := hj
  obtain ⟨q', hplace'', hstop⟩ := hstops
  cases hplace'.symm.trans hplace''
  rcases hstop with hstop | ⟨dir', hstop⟩
  · cases hlook'.symm.trans hstop
  · cases hlook'.symm.trans hstop
    have hbelow : below = .error e :=
      (fs.lookAt_branch hlook).2.2.2.trans (fs.lookAt_branch hlook').2.2.2.symm
    exact ⟨p, hplace, .inr ⟨dir, hbelow ▸ hlook⟩⟩

/-- A repeated directory with nothing before it that stops the walk is reported as a cycle. -/
theorem walk_eq_cycle {root dir : Path} {i j : Nat} (hij : i < j)
    (hi : (fs.tree canonicalArtifactRoot).Meets [root] i dir)
    (hj : (fs.tree canonicalArtifactRoot).Meets [root] j dir)
    (hfirst : ∀ k < j, ∀ e, ¬(fs.tree canonicalArtifactRoot).Stops [root] k e) :
    ∃ dir', (fs.tree canonicalArtifactRoot).walk addBytes [root] ∅ 0 = .error (.cycle dir') := by
  have hends : (fs.tree canonicalArtifactRoot).Ends [root] ∅ j (.cycle dir) :=
    .inr ⟨dir, hj, .inr ⟨i, hij, hi⟩, rfl⟩
  cases hwalk : (fs.tree canonicalArtifactRoot).walk addBytes [root] ∅ 0 with
  | ok bytes => exact absurd hends (Walk.not_ends_of_walk _ _ hwalk j _)
  | error e =>
      obtain ⟨n, hn, hbefore⟩ := Walk.ends_of_walk _ _ hwalk
      have hle : n ≤ j := not_lt.mp fun hlt => hbefore j hlt _ hends
      rcases hn with hstops | ⟨dir', -, -, rfl⟩
      · -- the walk does not stop before the repetition, nor at it
        rcases hle.lt_or_eq with hlt | rfl
        · exact absurd hstops (hfirst n hlt e)
        · exact absurd (stops_of_meets hi hj hstops) (hfirst i hij e)
      · exact ⟨dir', rfl⟩

/-- What is reported as a cycle is a repeated directory with nothing before it that stops the walk. -/
theorem meets_of_walk_eq_cycle {root dir : Path}
    (h : (fs.tree canonicalArtifactRoot).walk addBytes [root] ∅ 0 = .error (.cycle dir)) :
    ∃ i j dir', i < j ∧ (fs.tree canonicalArtifactRoot).Meets [root] i dir' ∧
      (fs.tree canonicalArtifactRoot).Meets [root] j dir' ∧
      ∀ k < j, ∀ e, ¬(fs.tree canonicalArtifactRoot).Stops [root] k e := by
  obtain ⟨j, hends, hbefore⟩ := Walk.ends_of_walk _ _ h
  rcases hends with hstops | ⟨dir', hj, hmet | ⟨i, hij, hi⟩, -⟩
  · exact absurd rfl ((of_stops hstops).1 dir)
  · exact absurd hmet (Finset.notMem_empty dir')
  · exact ⟨i, j, dir', hij, hi, hj, fun k hk e hstops => hbefore k hk e (.inl hstops)⟩

/-- Inspecting a shard tree is exact if and only if it can tell sharing from a cycle and the total
fits. -/
theorem inspectsExactly_iff (fs : LinkGraph) (artifactRoot root : Path) :
    fs.InspectsExactly artifactRoot root ↔ fs.Distinguishable artifactRoot root := by
  constructor
  · intro hexact
    have hcycle : ∀ {canonicalArtifactRoot dir},
        fs.canonicalize artifactRoot = .ok canonicalArtifactRoot →
        (fs.tree canonicalArtifactRoot).walk addBytes [root] ∅ 0 = .error (.cycle dir) →
        fs.Cyclic root := fun hroot hwalk => hexact.of_cycle ((inspect_eq hroot root).trans hwalk)
    constructor
    · intro canonicalArtifactRoot hroot
      by_cases hcyclic : fs.Cyclic root
      · exact .inl hcyclic
      · refine .inr fun i j dir hij hi hj => ?_
        by_contra hfirst
        push Not at hfirst
        obtain ⟨dir', hwalk⟩ := walk_eq_cycle hij hi hj hfirst
        exact hcyclic (hcycle hroot hwalk)
    · intro canonicalArtifactRoot hroot hinside sizes hsizes
      have hleaves : (fs.tree canonicalArtifactRoot).Leaves [root] sizes := by
        apply leaves_of_fileSizes hsizes
        intro p hp q hreach
        obtain rfl := List.mem_singleton.mp hp
        exact hinside q hreach
      cases hwalk : (fs.tree canonicalArtifactRoot).walk addBytes [root] ∅ 0 with
      | ok bytes =>
          obtain ⟨_, -, -, sizes', hsizes', hbytes⟩ :=
            hexact.of_ok ((inspect_eq hroot root).trans hwalk)
          rw [hsizes.unique hsizes', ← hbytes]
          exact bytes.toNat_lt
      | error e =>
          obtain ⟨n, hstops | ⟨dir, -, -, rfl⟩, -⟩ := Walk.ends_of_walk _ _ hwalk
          · exact absurd hstops (hleaves.not_stops n e)
          · exact absurd (hcycle hroot hwalk) (not_cyclic_of_fileSizes hsizes)
  · intro hcond
    constructor
    · intro bytes hbytes
      obtain ⟨canonicalArtifactRoot, hroot, hwalk⟩ := exists_canonicalArtifactRoot hbytes nofun
      obtain ⟨sizes, hleaves, rfl⟩ := Walk.leaves_of_walk _ _ hwalk
      obtain ⟨hsizes, hinside⟩ := fileSizes_of_leaves hleaves
      have hinside : ∀ path, fs.Reached root path → fs.Inside canonicalArtifactRoot path :=
        hinside root List.mem_cons_self
      refine ⟨canonicalArtifactRoot, hroot, hinside, sizes, hsizes, ?_⟩
      rw [toNat_foldl_addBytes, UInt64.toNat_zero, Nat.zero_add]
      exact Nat.mod_eq_of_lt (hcond.fits hroot hinside sizes hsizes)
    · intro c hescapes
      obtain ⟨canonicalArtifactRoot, hroot, hwalk⟩ := exists_canonicalArtifactRoot hescapes nofun
      obtain ⟨n, hstops | ⟨dir, -, -, hdir⟩, -⟩ := Walk.ends_of_walk _ _ hwalk
      · obtain ⟨path, hpath⟩ := (of_stops hstops).2 c rfl
        exact ⟨canonicalArtifactRoot, path, hroot, hpath⟩
      · cases hdir
    · intro dir hreported
      obtain ⟨canonicalArtifactRoot, hroot, hwalk⟩ := exists_canonicalArtifactRoot hreported nofun
      rcases hcond.cyclic_or hroot with hcyclic | hstopsBefore
      · exact hcyclic
      · obtain ⟨i, j, dir', hij, hi, hj, hfirst⟩ := meets_of_walk_eq_cycle hwalk
        obtain ⟨k, hk, e, hstops⟩ := hstopsBefore i j dir' hij hi hj
        exact absurd hstops (hfirst k hk e)

/-- A shard directory with two links to one directory beside it. -/
def sharedDirectory : LinkGraph where
  canonicalize path :=
    if path = ["shard", "a"] ∨ path = ["shard", "b"] then .ok ["common"]
    else if path ∈ [[], ["shard"], ["common"]] then .ok path
    else .error "No such file or directory (os error 2)"
  metadata path :=
    if path ∈ ([[], ["shard"], ["common"]] : List Path) then .ok .dir
    else .error "No such file or directory (os error 2)"
  readDir path :=
    if path = ["shard"] then .ok [.ok "a", .ok "b"]
    else if path = [] then .ok [.ok "shard", .ok "common"]
    else .ok []
  directories := {[], ["shard"], ["common"]}
  mem_directories {path} h := by
    split at h
    · next hmem => simpa using hmem
    · cases h

/-- Two links to one directory are reported as a cycle, though no directory reaches itself. -/
theorem sharedDirectory_not_inspectsExactly :
    ¬sharedDirectory.InspectsExactly [] ["shard"] := by
  intro hexact
  have hshard : (sharedDirectory.tree []).look ["shard"] =
      .branch ["shard"] (.ok [["shard", "b"], ["shard", "a"]]) := rfl
  have hb : (sharedDirectory.tree []).look ["shard", "b"] = .branch ["common"] (.ok []) := rfl
  have ha : (sharedDirectory.tree []).look ["shard", "a"] = .branch ["common"] (.ok []) := rfl
  have hwalk : (sharedDirectory.tree []).walk addBytes [["shard"]] ∅ 0 =
      .error (.cycle ["common"]) := by
    rw [Walk.walk_branch hshard _ (by decide)]
    show (sharedDirectory.tree []).walk addBytes [["shard", "b"], ["shard", "a"]] _ 0 = _
    rw [Walk.walk_branch hb _ (by decide)]
    exact Walk.walk_again ha _ (by decide) 0
  have hleaves : (sharedDirectory.tree []).Leaves [["shard"]] [] :=
    .branch hshard (.branch hb .nil (.branch ha .nil .nil)) .nil
  have hcyclic : sharedDirectory.Cyclic ["shard"] := hexact.of_cycle hwalk
  exact not_cyclic_of_fileSizes (fileSizes_of_leaves hleaves).1 hcyclic

end LinkGraph

end LTSearch
