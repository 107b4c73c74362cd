/-
# LTSearch.Storage.ArtifactKeys -- three readings of a shard path

The publisher takes the key of a shard path apart to upload below it, the searchers to open what it
names, and the sync takes the keys of single objects apart to write them.  Two of them look at the
components of a path, from which a dot has gone; the sync looks at the text between the slashes too.
-/
import LTSearch.Foundation.FileSystem
import LTSearch.Indexing.Publisher
import LTSearch.Models.Search

namespace LTSearch

open LTSearch.Foundation FileTree

/-! ## Paths and their components -/

/-- `Component`, without the drive of another system. -/
inductive Component where
  | rootDir
  | curDir
  | parentDir
  | normal (name : String)

def Component.isNormal : Component → Bool
  | .normal _ => true
  | _ => false

/-- A piece of a path that is left. -/
def componentOf (segment : List Char) : Component :=
  if segment = ['.', '.'] then .parentDir else .normal (String.ofList segment)

/-- The pieces that are left: no empty ones, and no dots. -/
def keptSegments (segments : List (List Char)) : List (List Char) :=
  segments.filter fun segment => segment ≠ [] ∧ segment ≠ ['.']

/-- `Path::components`: a dot stays at the very start only. -/
def components (path : String) : List Component :=
  (if path.toList.head? = some '/' then [.rootDir]
    else if (splitSlash path.toList).head? = some ['.'] then [.curDir] else []) ++
  (keptSegments (splitSlash path.toList)).map componentOf

/-- `Path::join` -/
def joinPath (root key : String) : String :=
  if key.toList.head? = some '/' then key
  else if root = "" ∨ root.toList.getLast? = some '/' then root ++ key
  else root ++ "/" ++ key

/-! ## A file system without links -/

/-- One step of the resolution of a path, from a place. -/
def enter (tree : FileTree) (place : Path) (segment : List Char) : Except String Path :=
  if isDirAt place tree = false then .error "Not a directory (os error 20)"
  else if segment = [] ∨ segment = ['.'] then .ok place
  else if segment = ['.', '.'] then .ok place.dropLast
  else
    match get (place ++ [String.ofList segment]) tree with
    | some _ => .ok (place ++ [String.ofList segment])
    | none => .error "No such file or directory (os error 2)"

/-- `Path::canonicalize` -/
def canonicalize (tree : FileTree) (cwd : Path) (path : String) : Except String Path :=
  if path = "" then .error "No such file or directory (os error 2)"
  else (splitSlash path.toList).foldlM (enter tree)
    (if path.toList.head? = some '/' then [] else cwd)

/-! ## The searchers -/

/-- `resolve_artifact_path` -/
def resolveArtifactPath (tree : FileTree) (cwd : Path) (artifactRoot artifactPath kind : String) :
    Except SearchError Path :=
  match (stripPrefix "s3://".toList artifactPath.toList).bind (splitOnce '/') with
  | none => .error (.execution ("invalid " ++ kind ++ " artifact path: " ++ artifactPath))
  | some (_, key) => do
      let key := String.ofList key
      rejectIf ((components key).any (· matches .parentDir | .rootDir))
        (.execution ("invalid " ++ kind ++ " artifact path: " ++ artifactPath))
      let canonicalArtifactRoot ← (canonicalize tree cwd artifactRoot).mapError fun source =>
        SearchError.execution
          ("failed to canonicalize artifact root " ++ artifactRoot ++ ": " ++ source)
      let resolvedPath := joinPath artifactRoot key
      let canonicalResolvedPath ← (canonicalize tree cwd resolvedPath).mapError fun source =>
        SearchError.execution
          ("failed to canonicalize " ++ kind ++ " artifact path " ++ resolvedPath ++ ": " ++ source)
      rejectIf (¬canonicalArtifactRoot <+: canonicalResolvedPath)
        (.execution ("resolved " ++ kind ++ " artifact path escapes artifact root: /" ++
          "/".intercalate canonicalResolvedPath))
      return canonicalResolvedPath

/-! ## The sync -/

/-- `synced_artifact_prefixes` -/
def syncedArtifactPrefixes : List String := ["index/", "lance/"]

/-- `validate_object_key` -/
def validateObjectKey (key : String) : Except String Unit := do
  rejectIf (key = "") "refusing empty S3 key"
  rejectIf ((components key).any fun component => component.isNormal = false)
    ("refusing S3 key with non-normal path component: " ++ key)
  rejectIf ((splitSlash key.toList).any (· = ['.']))
    ("refusing S3 key with non-normal path component: " ++ key)

/-- What the sync works with: the pages of a listing, the objects, and the local disk. -/
structure SyncWorld where
  listObjects : String → Except String (List (List (Option String)))
  getObject : String → Except String (Except String (List UInt8))
  createParent : String → Except String Unit
  write : String → List UInt8 → Except String Unit

namespace SyncWorld

variable (world : SyncWorld)

/-- One object of a listing in `sync_prefix_to`: what is written for it, and where. -/
def syncObject (destinationFor : String → Except String String) :
    Option String → Except String (Option (String × List UInt8))
  | none => .ok none
  | some key =>
      if key.toList.getLast? = some '/' then .ok none
      else do
        validateObjectKey key
        let object ← (world.getObject key).mapError fun error =>
          "failed to download " ++ key ++ " from S3: " ++ error
        let body ← object.mapError fun error => "failed to read " ++ key ++ " body from S3: " ++ error
        let destination ← destinationFor key
        (world.createParent destination).mapError fun error =>
          "failed to create local artifact directories: " ++ error
        (world.write destination body).mapError fun error =>
          "failed to write local artifact " ++ key ++ ": " ++ error
        return some (destination, body)

/-- `sync_prefix_to`: the files written, if nothing fails. -/
def syncPrefixTo (keyPrefix : String) (destinationFor : String → Except String String) :
    Except String (List (String × List UInt8)) := do
  let pages ← (world.listObjects keyPrefix).mapError fun error =>
    "failed to list " ++ keyPrefix ++ " objects from S3: " ++ error
  let written ← pages.flatten.mapM (world.syncObject destinationFor)
  return written.reduceOption

/-- `sync_prefix` -/
def syncPrefix (keyPrefix artifactRoot : String) : Except String (List (String × List UInt8)) :=
  world.syncPrefixTo keyPrefix fun key => .ok (joinPath artifactRoot key)

/-- The mirrored part of `sync`. -/
def syncArtifacts (artifactRoot : String) : Except String (List (String × List UInt8)) := do
  let written ← syncedArtifactPrefixes.mapM fun keyPrefix => world.syncPrefix keyPrefix artifactRoot
  return written.flatten

end SyncWorld

/-! ## What is uploaded -/

/-- A name that stands for itself in a path. -/
structure PlainName (name : String) : Prop where
  nonempty : name ≠ ""
  no_slash : '/' ∉ name.toList
  no_dot : name ≠ "."
  no_parent : name ≠ ".."

/-- `upload_directory` of a directory with plain names stores a file under a key. -/
inductive Uploads : String → FileTree → Path → String → List UInt8 → Prop
  | file {key name : String} {entries : List (String × FileTree)} {bytes : List UInt8} :
      entries.lookup name = some (.file bytes) → PlainName name →
      Uploads key (.dir entries) [name] (childKey key name) bytes
  | dir {key name object : String} {entries : List (String × FileTree)} {child : FileTree}
      {names : Path} {bytes : List UInt8} :
      entries.lookup name = some child → PlainName name →
      Uploads (childKey key name) child names object bytes →
      Uploads key (.dir entries) (name :: names) object bytes

/-- Where the key of a shard leads, below any root. -/
def keyNames (key : String) : Path := (keptSegments (splitSlash key.toList)).map String.ofList

/-- A shard path means the same to the publisher, the searchers and the sync. -/
structure ValidatorsAgree (shardPath : String) : Prop where
  served {key : String} : s3Key shardPath = .ok key →
    ∀ (tree : FileTree) (cwd : Path) (artifactRoot kind : String) (root : Path),
      canonicalize tree cwd artifactRoot = .ok root → isDirAt (root ++ keyNames key) tree = true →
      resolveArtifactPath tree cwd artifactRoot shardPath kind = .ok (root ++ keyNames key)
  listed {key : String} : s3Key shardPath = .ok key →
    ∀ dir names object bytes, Uploads key dir names object bytes →
      ∃ keyPrefix ∈ syncedArtifactPrefixes, keyPrefix.toList <+: object.toList
  accepted {key : String} : s3Key shardPath = .ok key →
    ∀ dir names object bytes, Uploads key dir names object bytes → validateObjectKey object = .ok ()
  written {key : String} : s3Key shardPath = .ok key →
    ∀ dir names object bytes, Uploads key dir names object bytes →
      ∀ (world : SyncWorld) (artifactRoot : String), world.getObject object = .ok (.ok bytes) →
        world.createParent (joinPath artifactRoot object) = .ok () →
        world.write (joinPath artifactRoot object) bytes = .ok () →
        world.syncObject (fun key => .ok (joinPath artifactRoot key)) (some object) =
            .ok (some (joinPath artifactRoot object, bytes)) ∧
          ∀ (tree : FileTree) (cwd root : Path) (content : List UInt8),
            canonicalize tree cwd artifactRoot = .ok root →
            get (root ++ keyNames key ++ names) tree = some (.file content) →
            canonicalize tree cwd (joinPath artifactRoot object) = .ok (root ++ keyNames key ++ names)
  synced {key : String} : s3Key shardPath = .ok key →
    ∀ dir names object bytes, Uploads key dir names object bytes →
      ∀ (world : SyncWorld) (artifactRoot keyPrefix : String) (pages : List (List (Option String)))
        (written : List (String × List UInt8)), keyPrefix ∈ syncedArtifactPrefixes →
        world.listObjects keyPrefix = .ok pages → some object ∈ pages.flatten →
        world.getObject object = .ok (.ok bytes) → world.syncArtifacts artifactRoot = .ok written →
        (joinPath artifactRoot object, bytes) ∈ written

/-! ## Splitting at slashes -/

theorem splitSlash_eq (path : List Char) : splitSlash path = path.splitOn '/' := by
  induction path with
  | nil => rfl
  | cons c rest ih =>
      rw [List.splitOn_cons_eq_if_modifyHead, ← ih, splitSlash]
      cases hsplit : splitSlash rest with
      | nil =>
          rw [ih] at hsplit
          exact absurd hsplit (List.splitOn_ne_nil '/' rest)
      | cons part parts => simp only [beq_iff_eq, List.modifyHead_cons]

theorem splitSlash_append (path rest : List Char) :
    splitSlash (path ++ '/' :: rest) = splitSlash path ++ splitSlash rest := by
  simp only [splitSlash_eq, List.splitOn_append_cons_self]

theorem splitSlash_plain {name : String} (h : PlainName name) :
    splitSlash name.toList = [name.toList] := by
  rw [splitSlash_eq]
  exact List.splitOn_eq_singleton h.no_slash

theorem splitSlash_childKey {name : String} (h : PlainName name) (key : String) :
    splitSlash (childKey key name).toList = splitSlash key.toList ++ [name.toList] := by
  have hlist : (childKey key name).toList = key.toList ++ '/' :: name.toList := by
    simp [childKey, String.toList_append]
  rw [hlist, splitSlash_append, splitSlash_plain h]

/-! ## What the three of them accept -/

/-- What the publisher accepts as a key. -/
structure RelativeKey (key : String) : Prop where
  nonempty : key ≠ ""
  relative : key.toList.head? ≠ some '/'
  no_parent : ['.', '.'] ∉ splitSlash key.toList
  no_first_dot : (splitSlash key.toList).head? ≠ some ['.']

theorem validateRelativeStorageKey_eq_ok {key : String} :
    validateRelativeStorageKey key = .ok () ↔ RelativeKey key := by
  unfold validateRelativeStorageKey abnormalComponent
  rw [rejectIf_eq_ok]
  simp only [Bool.or_eq_true, List.any_eq_true, decide_eq_true_eq, exists_eq_right, not_or]
  constructor
  · rintro ⟨hnonempty, hrelative, hparent, hdot⟩
    exact ⟨hnonempty, hrelative, hparent, hdot⟩
  · rintro ⟨hnonempty, hrelative, hparent, hdot⟩
    exact ⟨hnonempty, hrelative, hparent, hdot⟩

/-- An accepted shard path ends in its key. -/
theorem of_s3Key {shardPath key : String} (h : s3Key shardPath = .ok key) :
    RelativeKey key ∧ ∃ bucket,
      (stripPrefix "s3://".toList shardPath.toList).bind (splitOnce '/') =
        some (bucket, key.toList) := by
  unfold s3Key at h
  split at h
  · next b bucket k ks hsplit =>
    obtain ⟨u, hvalid, hkey⟩ := bind_eq_ok.mp h
    cases hkey
    rw [hsplit, String.toList_ofList]
    exact ⟨validateRelativeStorageKey_eq_ok.mp hvalid, b :: bucket, rfl⟩
  · cases h

theorem mem_keptSegments {segment : List Char} {segments : List (List Char)} :
    segment ∈ keptSegments segments ↔ segment ∈ segments ∧ segment ≠ [] ∧ segment ≠ ['.'] := by
  simp [keptSegments]

/-- A relative key without parents has normal components only, apart from a dot at its start. -/
theorem components_eq {key : String} (hrelative : key.toList.head? ≠ some '/')
    (hparent : ['.', '.'] ∉ splitSlash key.toList) :
    components key = (if (splitSlash key.toList).head? = some ['.'] then [.curDir] else []) ++
      (keyNames key).map .normal := by
  unfold components keyNames
  rw [if_neg hrelative, List.map_map]
  congr 1
  apply List.map_congr_left
  intro segment hsegment
  unfold componentOf
  rw [if_neg]
  · rfl
  · rintro rfl
    exact hparent (mem_keptSegments.mp hsegment).1

/-- What the sync accepts: the same, and no dot between slashes. -/
theorem validateObjectKey_eq_ok {key : String} :
    validateObjectKey key = .ok () ↔ RelativeKey key ∧ ['.'] ∉ splitSlash key.toList := by
  unfold validateObjectKey
  simp only [bind_eq_ok, rejectIf_eq_ok, exists_const, List.any_eq_true, decide_eq_true_eq,
    exists_eq_right]
  constructor
  · rintro ⟨hnonempty, hnormal, hdot⟩
    have hall : ∀ component ∈ components key, component.isNormal = true := by
      intro component hmem
      by_contra habnormal
      exact hnormal ⟨component, hmem, by simpa using habnormal⟩
    refine ⟨⟨hnonempty, fun habsolute => ?_, fun hparent => ?_, fun hfirst => ?_⟩, hdot⟩
    · have hroot : Component.rootDir ∈ components key := by
        unfold components
        rw [if_pos habsolute]
        exact List.mem_append_left _ List.mem_cons_self
      cases hall _ hroot
    · have hmem : Component.parentDir ∈ components key := by
        unfold components
        refine List.mem_append_right _ (List.mem_map.mpr ⟨['.', '.'], ?_, rfl⟩)
        exact mem_keptSegments.mpr ⟨hparent, by decide, by decide⟩
      cases hall _ hmem
    · exact hdot (List.mem_of_mem_head? hfirst)
  · rintro ⟨hkey, hdot⟩
    refine ⟨hkey.nonempty, ?_, hdot⟩
    rw [components_eq hkey.relative hkey.no_parent, if_neg hkey.no_first_dot, List.nil_append]
    rintro ⟨component, hmem, habnormal⟩
    obtain ⟨name, -, rfl⟩ := List.mem_map.mp hmem
    cases habnormal

/-! ## Where a key leads -/

theorem isDirAt_of_get {p q : Path} {tree node : FileTree} (hq : q ≠ [])
    (h : get (p ++ q) tree = some node) : isDirAt p tree = true := by
  rw [get_append] at h
  obtain ⟨parent, hparent, hnode⟩ := Option.bind_eq_some_iff.mp h
  obtain ⟨name, rest, rfl⟩ := List.exists_cons_of_ne_nil hq
  cases parent with
  | file bytes => cases hnode
  | dir entries => exact isDirAt_iff.mpr ⟨entries, hparent⟩

theorem isDirAt_of_append {p q : Path} {tree : FileTree} (h : isDirAt (p ++ q) tree = true) :
    isDirAt p tree = true := by
  cases q with
  | nil => rwa [List.append_nil] at h
  | cons name rest =>
      obtain ⟨entries, hentries⟩ := isDirAt_iff.mp h
      exact isDirAt_of_get (List.cons_ne_nil name rest) hentries

/-- A piece that names something leads there. -/
theorem enter_name {tree node : FileTree} {place : Path} {segment : List Char}
    (hname : segment ≠ [] ∧ segment ≠ ['.'] ∧ segment ≠ ['.', '.'])
    (h : get (place ++ [String.ofList segment]) tree = some node) :
    enter tree place segment = .ok (place ++ [String.ofList segment]) := by
  have hdir : isDirAt place tree = true := isDirAt_of_get (List.cons_ne_nil _ []) h
  unfold enter
  rw [if_neg (by rw [hdir]; exact nofun), if_neg (by tauto), if_neg hname.2.2, h]

/-- Pieces without a parent lead to the directory that their names name. -/
theorem foldlM_enter {tree : FileTree} {segments : List (List Char)} {place : Path}
    (hparent : ['.', '.'] ∉ segments)
    (h : isDirAt (place ++ (keptSegments segments).map String.ofList) tree = true) :
    segments.foldlM (enter tree) place =
      .ok (place ++ (keptSegments segments).map String.ofList) := by
  induction segments generalizing place with
  | nil => rw [keptSegments, List.filter_nil, List.map_nil, List.append_nil]; rfl
  | cons segment segments ih =>
      rw [List.mem_cons, not_or] at hparent
      rw [List.foldlM_cons, bind_eq_ok]
      by_cases hkept : segment ≠ [] ∧ segment ≠ ['.']
      · have hcons : keptSegments (segment :: segments) = segment :: keptSegments segments := by
          unfold keptSegments
          exact List.filter_cons_of_pos (by simpa using hkept)
        rw [hcons, List.map_cons, List.append_cons] at h ⊢
        obtain ⟨entries, hentries⟩ := isDirAt_iff.mp (isDirAt_of_append h)
        exact ⟨_, enter_name ⟨hkept.1, hkept.2, Ne.symm hparent.1⟩ hentries, ih hparent.2 h⟩
      · have hskip : keptSegments (segment :: segments) = keptSegments segments := by
          unfold keptSegments
          exact List.filter_cons_of_neg (by simpa using hkept)
        rw [hskip] at h ⊢
        refine ⟨place, ?_, ih hparent.2 h⟩
        unfold enter
        rw [if_neg (by rw [isDirAt_of_append h]; exact nofun), if_pos (by tauto)]

/-- A relative key is resolved from where the root is. -/
theorem canonicalize_joinPath {tree : FileTree} {cwd root : Path} {artifactRoot key : String}
    (hroot : canonicalize tree cwd artifactRoot = .ok root)
    (hkey : key.toList.head? ≠ some '/') :
    canonicalize tree cwd (joinPath artifactRoot key) =
      (splitSlash key.toList).foldlM (enter tree) root := by
  have hnonempty : artifactRoot ≠ "" := by
    rintro rfl
    cases hroot
  have hlist : artifactRoot.toList ≠ [] := fun hnil => hnonempty (String.toList_eq_nil_iff.mp hnil)
  rw [canonicalize, if_neg hnonempty] at hroot
  unfold joinPath
  rw [if_neg hkey]
  split
  · next hslash =>
    -- the root ends in a slash, so its last piece is empty and leads nowhere else
    obtain ⟨before, hbefore⟩ := List.getLast?_eq_some_iff.mp (hslash.resolve_left hnonempty)
    have hhead : (artifactRoot ++ key).toList.head? = artifactRoot.toList.head? := by
      rw [String.toList_append, List.head?_append_of_ne_nil _ hlist]
    have hsplit : splitSlash (artifactRoot ++ key).toList =
        splitSlash before ++ splitSlash key.toList := by
      rw [String.toList_append, hbefore, List.append_assoc]
      exact splitSlash_append before key.toList
    rw [hbefore, splitSlash_append before [], List.foldlM_append, bind_eq_ok, ← hbefore] at hroot
    obtain ⟨place, hplace, hlast⟩ := hroot
    have heq : place = root := by
      rw [show splitSlash [] = [[]] from rfl, List.foldlM_cons, bind_eq_ok] at hlast
      obtain ⟨place', henter, hend⟩ := hlast
      cases hend
      unfold enter at henter
      split at henter
      · cases henter
      · rw [if_pos (.inl rfl)] at henter
        exact Except.ok.inj henter
    rw [canonicalize, if_neg (by simp [hnonempty]), hhead, hsplit, List.foldlM_append, hplace, heq]
    rfl
  · next hslash =>
    have hcons : (artifactRoot ++ "/" ++ key).toList = artifactRoot.toList ++ '/' :: key.toList := by
      simp [String.toList_append]
    rw [canonicalize, if_neg (by simp), hcons, List.head?_append_of_ne_nil _ hlist,
      splitSlash_append, List.foldlM_append, hroot]
    rfl

/-- A relative key leads to its names below the root. -/
theorem canonicalize_key {tree : FileTree} {cwd root : Path} {artifactRoot key : String}
    (hroot : canonicalize tree cwd artifactRoot = .ok root) (hkey : RelativeKey key)
    (hdir : isDirAt (root ++ keyNames key) tree = true) :
    canonicalize tree cwd (joinPath artifactRoot key) = .ok (root ++ keyNames key) := by
  rw [canonicalize_joinPath hroot hkey.relative]
  exact foldlM_enter hkey.no_parent hdir

/-! ## The keys of uploaded objects -/

section Uploads

variable {key object : String} {dir : FileTree} {names : Path} {bytes : List UInt8}

/-- The pieces of an object's key are those of the directory's key and the names on the way. -/
theorem Uploads.pieces (h : Uploads key dir names object bytes) :
    splitSlash object.toList = splitSlash key.toList ++ names.map String.toList := by
  induction h with
  | file _ hplain => exact splitSlash_childKey hplain _
  | dir _ hplain _ ih =>
      rw [ih, splitSlash_childKey hplain, List.append_assoc]
      rfl

theorem Uploads.plain (h : Uploads key dir names object bytes) : ∀ name ∈ names, PlainName name := by
  induction h with
  | file _ hplain => simpa using hplain
  | dir _ hplain _ ih => simpa using ⟨hplain, ih⟩

theorem Uploads.names_ne_nil (h : Uploads key dir names object bytes) : names ≠ [] := by
  cases h <;> exact List.cons_ne_nil _ _

/-- A key is its pieces, with slashes between them. -/
theorem toList_eq_intercalate (key : String) :
    key.toList = ['/'].intercalate (splitSlash key.toList) := by
  rw [splitSlash_eq, List.intercalate_splitOn]

theorem splitSlash_ne_nil (path : List Char) : splitSlash path ≠ [] := by
  rw [splitSlash_eq]
  exact List.splitOn_ne_nil '/' path

/-- The first piece of an object's key is that of the directory's key. -/
theorem Uploads.head_pieces (h : Uploads key dir names object bytes) :
    (splitSlash object.toList).head? = (splitSlash key.toList).head? := by
  rw [h.pieces, List.head?_append_of_ne_nil _ (splitSlash_ne_nil _)]

/-- A path is absolute when it begins with an empty piece and has another one. -/
theorem head_eq_slash_iff {path : List Char} :
    path.head? = some '/' ↔ (splitSlash path).head? = some [] ∧ splitSlash path ≠ [[]] := by
  rw [splitSlash_eq]
  cases path with
  | nil => simp
  | cons c rest =>
      rw [List.splitOn_cons_eq_if_modifyHead]
      by_cases hslash : c = '/'
      · simp [hslash, List.splitOn_ne_nil]
      · obtain ⟨part, parts, hparts⟩ := List.exists_cons_of_ne_nil (List.splitOn_ne_nil '/' rest)
        simp [hslash, hparts]

/-- An object below a relative key has a relative key. -/
theorem Uploads.relativeKey (h : Uploads key dir names object bytes) (hkey : RelativeKey key) :
    RelativeKey object := by
  have hfirst : (splitSlash key.toList).head? ≠ some [] := by
    intro hhead
    refine hkey.relative (head_eq_slash_iff.mpr ⟨hhead, fun hsingle => hkey.nonempty ?_⟩)
    have hnil := toList_eq_intercalate key
    rw [hsingle] at hnil
    exact String.toList_eq_nil_iff.mp hnil
  constructor
  · rintro rfl
    apply hfirst
    rw [← h.head_pieces]
    rfl
  · intro habsolute
    exact hfirst (h.head_pieces ▸ (head_eq_slash_iff.mp habsolute).1)
  · rw [h.pieces, List.mem_append]
    rintro (hparent | hparent)
    · exact hkey.no_parent hparent
    · obtain ⟨name, hname, heq⟩ := List.mem_map.mp hparent
      exact (h.plain name hname).no_parent (String.toList_injective heq)
  · rw [h.head_pieces]
    exact hkey.no_first_dot

/-- Plain names stay when the pieces of a key are taken as names. -/
theorem map_keptSegments_append (segments : List (List Char)) (names : Path)
    (h : ∀ name ∈ names, PlainName name) :
    (keptSegments (segments ++ names.map String.toList)).map String.ofList =
      (keptSegments segments).map String.ofList ++ names := by
  have hkept : keptSegments (names.map String.toList) = names.map String.toList := by
    unfold keptSegments
    rw [List.filter_eq_self]
    intro segment hsegment
    obtain ⟨name, hname, rfl⟩ := List.mem_map.mp hsegment
    simp only [decide_eq_true_eq]
    constructor
    · exact fun hnil => (h name hname).nonempty (String.toList_eq_nil_iff.mp hnil)
    · exact fun hdot => (h name hname).no_dot (String.toList_injective hdot)
  have hnames : (names.map String.toList).map String.ofList = names := by
    rw [List.map_map]
    conv_rhs => rw [← List.map_id names]
    exact List.map_congr_left fun name _ => String.ofList_toList
  have happend : keptSegments (segments ++ names.map String.toList) =
      keptSegments segments ++ keptSegments (names.map String.toList) := List.filter_append _ _
  rw [happend, hkept, List.map_append, hnames]

/-- The key of an object leads to where the names on the way lead, below the directory's key. -/
theorem Uploads.canonicalize_eq {tree : FileTree} {cwd root : Path} {artifactRoot : String}
    {content : List UInt8} (h : Uploads key dir names object bytes) (hkey : RelativeKey key)
    (hroot : canonicalize tree cwd artifactRoot = .ok root)
    (hfile : get (root ++ keyNames key ++ names) tree = some (.file content)) :
    canonicalize tree cwd (joinPath artifactRoot object) = .ok (root ++ keyNames key ++ names) := by
  rw [canonicalize_joinPath hroot (h.relativeKey hkey).relative, h.pieces]
  -- all pieces but the last one lead to a directory, and the last one names the file in it
  obtain ⟨before, last, rfl⟩ := List.eq_nil_or_concat' names |>.resolve_left h.names_ne_nil
  have hplain := h.plain
  rw [List.map_append, ← List.append_assoc, List.foldlM_append, bind_eq_ok]
  rw [← List.append_assoc] at hfile ⊢
  have hbefore : root ++ (keptSegments (splitSlash key.toList ++ before.map String.toList)).map
      String.ofList = root ++ keyNames key ++ before := by
    rw [map_keptSegments_append _ before fun name hname =>
      hplain name (List.mem_append_left _ hname), ← List.append_assoc]
    rfl
  have hdir : isDirAt (root ++ keyNames key ++ before) tree = true :=
    isDirAt_of_get (List.cons_ne_nil last []) hfile
  refine ⟨root ++ keyNames key ++ before, ?_, ?_⟩
  · have hparent : ['.', '.'] ∉ splitSlash key.toList ++ before.map String.toList := by
      rw [List.mem_append]
      rintro (hparent | hparent)
      · exact hkey.no_parent hparent
      · obtain ⟨name, hname, heq⟩ := List.mem_map.mp hparent
        exact (hplain name (List.mem_append_left _ hname)).no_parent (String.toList_injective heq)
    rw [← hbefore] at hdir ⊢
    exact foldlM_enter hparent hdir
  · have hlast := hplain last (by simp)
    have henter : enter tree (root ++ keyNames key ++ before) last.toList =
        .ok (root ++ keyNames key ++ before ++ [last]) := by
      have hsegment : last.toList ≠ [] ∧ last.toList ≠ ['.'] ∧ last.toList ≠ ['.', '.'] :=
        ⟨fun hnil => hlast.nonempty (String.toList_eq_nil_iff.mp hnil),
          fun hdot => hlast.no_dot (String.toList_injective hdot),
          fun hparent => hlast.no_parent (String.toList_injective hparent)⟩
      have hget : get (root ++ keyNames key ++ before ++ [String.ofList last.toList]) tree =
          some (.file content) := by
        rw [String.ofList_toList]
        exact hfile
      rw [enter_name hsegment hget, String.ofList_toList]
    rw [List.map_singleton, List.foldlM_cons, henter]
    rfl

end Uploads

/-! ## When the three agree -/

/-- What the sync reads of a key that the publisher takes: no piece of it is a dot, and the first one
is a mirrored directory. -/
structure Syncable (key : String) : Prop where
  no_dot : ['.'] ∉ splitSlash key.toList
  mirrored : (splitSlash key.toList).head? = some "index".toList ∨
    (splitSlash key.toList).head? = some "lance".toList

/-- A path that goes on after its first piece begins with it and a slash. -/
theorem prefix_iff_head (directory : List Char) {path : List Char} (hplain : '/' ∉ directory)
    (hlong : ∀ piece, splitSlash path ≠ [piece]) :
    directory ++ ['/'] <+: path ↔ (splitSlash path).head? = some directory := by
  constructor
  · rintro ⟨rest, rfl⟩
    rw [List.append_assoc]
    show (splitSlash (directory ++ '/' :: rest)).head? = _
    rw [splitSlash_append, splitSlash_eq directory, List.splitOn_eq_singleton hplain]
    rfl
  · intro hhead
    obtain ⟨pieces, hpieces⟩ := List.head?_eq_some_iff.mp hhead
    have hpath : path = ['/'].intercalate (splitSlash path) := by
      rw [splitSlash_eq, List.intercalate_splitOn]
    cases pieces with
    | nil => exact absurd hpieces (hlong directory)
    | cons piece pieces =>
        rw [hpieces, List.intercalate_cons_cons] at hpath
        rw [hpath]
        exact List.prefix_append _ _

/-- The listings of the sync hold an object if and only if its key's first piece is mirrored. -/
theorem Uploads.listed_iff {key object : String} {dir : FileTree} {names : Path} {bytes : List UInt8}
    (h : Uploads key dir names object bytes) :
    (∃ keyPrefix ∈ syncedArtifactPrefixes, keyPrefix.toList <+: object.toList) ↔
      ((splitSlash key.toList).head? = some "index".toList ∨
        (splitSlash key.toList).head? = some "lance".toList) := by
  have hlong : ∀ piece, splitSlash object.toList ≠ [piece] := by
    intro piece hsingle
    obtain ⟨first, pieces, hpieces⟩ := List.exists_cons_of_ne_nil (splitSlash_ne_nil key.toList)
    rw [h.pieces, hpieces, List.cons_append, List.cons.injEq, List.append_eq_nil_iff,
      List.map_eq_nil_iff] at hsingle
    exact h.names_ne_nil hsingle.2.2
  have hindex := prefix_iff_head "index".toList (by decide) hlong
  have hlance := prefix_iff_head "lance".toList (by decide) hlong
  rw [h.head_pieces] at hindex hlance
  rw [← hindex, ← hlance]
  simp [syncedArtifactPrefixes]

/-- An object is accepted by the sync if and only if no piece of the directory's key is a dot. -/
theorem Uploads.accepted_iff {key object : String} {dir : FileTree} {names : Path}
    {bytes : List UInt8} (h : Uploads key dir names object bytes) (hkey : RelativeKey key) :
    validateObjectKey object = .ok () ↔ ['.'] ∉ splitSlash key.toList := by
  rw [validateObjectKey_eq_ok, h.pieces, List.mem_append, not_or]
  constructor
  · exact fun haccepted => haccepted.2.1
  · intro hdot
    refine ⟨h.relativeKey hkey, hdot, fun hmem => ?_⟩
    obtain ⟨name, hname, heq⟩ := List.mem_map.mp hmem
    exact (h.plain name hname).no_dot (String.toList_injective heq)

/-- The searchers find the directory of a key that the publisher takes. -/
theorem resolveArtifactPath_of_s3Key {shardPath key : String} (h : s3Key shardPath = .ok key)
    {tree : FileTree} {cwd root : Path} {artifactRoot : String} (kind : String)
    (hroot : canonicalize tree cwd artifactRoot = .ok root)
    (hdir : isDirAt (root ++ keyNames key) tree = true) :
    resolveArtifactPath tree cwd artifactRoot shardPath kind = .ok (root ++ keyNames key) := by
  obtain ⟨hkey, bucket, hsplit⟩ := of_s3Key h
  have hnormal : ¬((components key).any (· matches .parentDir | .rootDir)) = true := by
    rw [components_eq hkey.relative hkey.no_parent, if_neg hkey.no_first_dot, List.nil_append]
    simp
  unfold resolveArtifactPath
  rw [hsplit]
  simp only [String.ofList_toList, bind_eq_ok, rejectIf_eq_ok, mapError_eq_ok, exists_const]
  refine ⟨hnormal, root, hroot, _, canonicalize_key hroot hkey hdir, ?_, rfl⟩
  exact not_not.mpr (List.prefix_append _ _)

/-- What the sync does with an object that it accepts. -/
theorem syncObject_eq_ok {world : SyncWorld} {key artifactRoot : String} {body : List UInt8}
    (hslash : key.toList.getLast? ≠ some '/') (hvalid : validateObjectKey key = .ok ())
    (hget : world.getObject key = .ok (.ok body))
    (hparent : world.createParent (joinPath artifactRoot key) = .ok ())
    (hwrite : world.write (joinPath artifactRoot key) body = .ok ()) :
    world.syncObject (fun key => .ok (joinPath artifactRoot key)) (some key) =
      .ok (some (joinPath artifactRoot key, body)) := by
  simp only [SyncWorld.syncObject, if_neg hslash, hvalid, hget]
  show ((world.createParent (joinPath artifactRoot key)).mapError _ >>= fun _ =>
    (world.write (joinPath artifactRoot key) body).mapError _ >>= fun _ => _) = _
  rw [hparent, hwrite]
  rfl

/-- A listing whose objects are all accepted is mirrored, object by object. -/
theorem syncPrefix_writes {world : SyncWorld} {keyPrefix artifactRoot : String}
    {pages : List (List (Option String))} (hlist : world.listObjects keyPrefix = .ok pages)
    {written : List (String × List UInt8)}
    (h : world.syncPrefix keyPrefix artifactRoot = .ok written) {key : String}
    (hkey : some key ∈ pages.flatten) (hslash : key.toList.getLast? ≠ some '/') :
    validateObjectKey key = .ok () ∧
      ∃ body, world.getObject key = .ok (.ok body) ∧ (joinPath artifactRoot key, body) ∈ written := by
  simp only [SyncWorld.syncPrefix, SyncWorld.syncPrefixTo, bind_eq_ok, hlist] at h
  obtain ⟨pages', hpages, outcomes, houtcomes, hwritten⟩ := h
  cases hpages
  cases hwritten
  obtain ⟨i, hi, hget⟩ := List.getElem_of_mem hkey
  obtain ⟨hlength, hsynced⟩ := List.forall₂_iff_get.mp (mapM_eq_ok_iff.mp houtcomes)
  have houtcome := hsynced i hi (hlength ▸ hi)
  rw [List.get_eq_getElem, hget] at houtcome
  simp only [SyncWorld.syncObject, if_neg hslash, bind_eq_ok, mapError_eq_ok] at houtcome
  obtain ⟨u, hvalid, object, hobject, body, rfl, destination, hdestination, -, -, -, -, hdone⟩ :=
    houtcome
  cases hdestination
  refine ⟨hvalid, body, hobject, List.reduceOption_mem_iff.mpr ?_⟩
  rw [Except.ok.inj hdone]
  exact List.getElem_mem _

/-- A sync that succeeds has mirrored every object listed, and one object that it does not accept
fails all of it. -/
theorem syncArtifacts_writes {world : SyncWorld} {artifactRoot : String}
    {written : List (String × List UInt8)} (h : world.syncArtifacts artifactRoot = .ok written)
    {keyPrefix : String} (hmirrored : keyPrefix ∈ syncedArtifactPrefixes)
    {pages : List (List (Option String))} (hlist : world.listObjects keyPrefix = .ok pages)
    {key : String} (hkey : some key ∈ pages.flatten) (hslash : key.toList.getLast? ≠ some '/') :
    validateObjectKey key = .ok () ∧
      ∃ body, world.getObject key = .ok (.ok body) ∧ (joinPath artifactRoot key, body) ∈ written := by
  obtain ⟨parts, hparts, hwritten⟩ := bind_eq_ok.mp h
  cases hwritten
  obtain ⟨i, hi, rfl⟩ := List.getElem_of_mem hmirrored
  obtain ⟨hlength, hsynced⟩ := List.forall₂_iff_get.mp (mapM_eq_ok_iff.mp hparts)
  have hpart := hsynced i hi (hlength ▸ hi)
  obtain ⟨hvalid, body, hbody, hmem⟩ := syncPrefix_writes hlist hpart hkey hslash
  exact ⟨hvalid, body, hbody, List.mem_flatten.mpr ⟨_, List.getElem_mem _, hmem⟩⟩

/-- The key of a file does not end in a slash. -/
theorem Uploads.getLast_ne_slash {key object : String} {dir : FileTree} {names : Path}
    {bytes : List UInt8} (h : Uploads key dir names object bytes) :
    object.toList.getLast? ≠ some '/' := by
  have hchild : ∀ {key name : String}, PlainName name →
      (childKey key name).toList.getLast? ≠ some '/' := by
    intro key name hplain hlast
    have hne : name.toList ≠ [] := fun hnil => hplain.nonempty (String.toList_eq_nil_iff.mp hnil)
    rw [childKey, String.toList_append, List.getLast?_append_of_ne_nil _ hne] at hlast
    exact hplain.no_slash (List.mem_of_getLast? hlast)
  induction h with
  | file _ hplain => exact hchild hplain
  | dir _ _ _ ih => exact ih

/-- The publisher, the searchers and the sync agree on a shard path if and only if it is none to the
publisher or its key is one that the sync mirrors, without dots. -/
theorem validatorsAgree_iff (shardPath : String) :
    ValidatorsAgree shardPath ↔ ∀ key, s3Key shardPath = .ok key → Syncable key := by
  constructor
  · intro hagree key hkey
    have hplain : PlainName "f" := ⟨by decide, by decide, by decide, by decide⟩
    have huploads : Uploads key (.dir [("f", .file [])]) ["f"] (childKey key "f") [] :=
      .file rfl hplain
    constructor
    · exact (huploads.accepted_iff (of_s3Key hkey).1).mp (hagree.accepted hkey _ _ _ _ huploads)
    · exact huploads.listed_iff.mp (hagree.listed hkey _ _ _ _ huploads)
  · intro hsyncable
    constructor
    · intro key hkey tree cwd artifactRoot kind root hroot hdir
      exact resolveArtifactPath_of_s3Key hkey kind hroot hdir
    · intro key hkey dir names object bytes huploads
      exact huploads.listed_iff.mpr (hsyncable key hkey).mirrored
    · intro key hkey dir names object bytes huploads
      exact (huploads.accepted_iff (of_s3Key hkey).1).mpr (hsyncable key hkey).no_dot
    · intro key hkey dir names object bytes huploads world artifactRoot hget hparent hwrite
      have hvalid := (huploads.accepted_iff (of_s3Key hkey).1).mpr (hsyncable key hkey).no_dot
      refine ⟨syncObject_eq_ok huploads.getLast_ne_slash hvalid hget hparent hwrite, ?_⟩
      intro tree cwd root content hroot hfile
      exact huploads.canonicalize_eq (of_s3Key hkey).1 hroot hfile
    · intro key hkey dir names object bytes huploads world artifactRoot keyPrefix pages written
        hmirrored hlist hlisted hget hsync
      obtain ⟨-, body, hbody, hmem⟩ :=
        syncArtifacts_writes hsync hmirrored hlist hlisted huploads.getLast_ne_slash
      obtain rfl : bytes = body := Except.ok.inj (Except.ok.inj (hget.symm.trans hbody))
      exact hmem

/-- A shard path with a dot between its slashes is published and served, but not synced. -/
theorem dottedPath_disagrees : ¬ValidatorsAgree "s3://ltsearch/lance/./shard_0" := by
  intro hagree
  have hkey : s3Key "s3://ltsearch/lance/./shard_0" = .ok "lance/./shard_0" := by decide
  have huploads : Uploads "lance/./shard_0" (.dir [("data", .file [])]) ["data"]
      (childKey "lance/./shard_0" "data") [] :=
    .file rfl ⟨by decide, by decide, by decide, by decide⟩
  have haccepted := hagree.accepted hkey _ _ _ _ huploads
  exact (validateObjectKey_eq_ok.mp haccepted).2 (by decide)

end LTSearch
