/-
# LTSearch.Embedding.ModelAssets -- provisioning the model bundle

`provision_with` fetches the files of a remote bundle into one directory and writes the bundle's
manifest last.  `assets_ready` looks at the manifest and at sizes only, so a manifest in the directory
must mean that every file it lists is the right one, or is not there at all.  Each operation may fail,
a download and the manifest may be cut off anywhere, and the remote bundle may be replaced at any
time; an attempt that is not continued has crashed.

`Path::exists` answers that a path is not there also where it could not look: then the old manifest
stays while the files are replaced.  Apart from that a directory that is ready is right.
-/
import LTSearch.Foundation.Attempts
import LTSearch.Foundation.Checks
import LTSearch.Foundation.Sha256
import LTSearch.Index.Record
import LTSearch.Json

namespace LTSearch

open LTSearch.Foundation Contract.Safe

namespace ModelAssets

/-! ## The directory and the remote bundle -/

/-- `MANIFEST_FILE`. -/
def manifestFile : String := "manifest.json"

structure AssetFile where
  name : String
  bytes : UInt64
  sha256 : String
  deriving DecidableEq, Repr

structure AssetManifest where
  files : List AssetFile
  deriving DecidableEq, Repr

/-- The files of the bundle directory. -/
abbrev BundleDir := String → Option Bytes

/-- What the code outside the repository does, and the texts of the source and the directory. -/
structure Setup where
  sha : Sha256
  /-- `serde_json`, of a slice or of the text of the slice -/
  parse : Bytes → Except String AssetManifest
  label : String
  bundleDir : String

variable (setup : Setup)

/-- The manifest in the directory, if its text parses. -/
def localManifest (dir : BundleDir) : Option AssetManifest := do
  let bytes ← dir manifestFile
  let _ ← fromUtf8 bytes
  (setup.parse bytes).toOption

/-- `assets_ready`, when nothing disturbs it. -/
def assetsReady (dir : BundleDir) : Bool :=
  match localManifest setup dir with
  | none => false
  | some manifest => manifest.files.all fun file =>
      (dir file.name).any fun bytes => UInt64.ofNat bytes.length = file.bytes

inductive AssetOp where
  /-- `assets_ready`, which only reads -/
  | assetsReady
  | createDir
  | markerExists
  | removeMarker
  /-- `fetch_bytes` of the manifest -/
  | fetchManifest
  /-- `fetch_to_file` -/
  | fetchToFile (name dest : String)
  | rename (source dest : String)
  | writeMarker (bytes : Bytes)

/-- The answers.  A text is what the system or the fetcher said. -/
abbrev AssetOp.Ans : AssetOp → Type
  | .assetsReady => Bool
  | .createDir => Except String Unit
  | .markerExists => Bool
  | .removeMarker => Except String Unit
  | .fetchManifest => Except String Bytes
  | .fetchToFile _ _ => Except String (UInt64 × String)
  | .rename _ _ => Except String Unit
  | .writeMarker _ => Except String Unit

abbrev signature : Signature where
  Op := AssetOp
  Ans := AssetOp.Ans

abbrev AssetM := Prog signature

abbrev call (op : AssetOp) : AssetM op.Ans := Prog.ask (S := signature) op

/-- What is decided outside the code at one step. -/
structure Choice where
  fails : Bool
  detail : String
  /-- the remote bundle as it is now -/
  remote : String → Bytes
  /-- how much a write that fails has written; nothing if the file is not even created -/
  written : Option Nat

/-- The directory after a write that failed. -/
def cutOff (dir : BundleDir) (name : String) (bytes : Bytes) (c : Choice) : BundleDir :=
  match c.written with
  | none => dir
  | some n => Function.update dir name (some (bytes.take n))

/-- What each operation does. -/
def perform (op : AssetOp) (c : Choice) (dir : BundleDir) : op.Ans × BundleDir :=
  match op with
  | .assetsReady => (!c.fails && assetsReady setup dir, dir)
  | .createDir => (if c.fails then .error c.detail else .ok (), dir)
  -- `Path::exists` is `metadata(path).is_ok()`: a failed `stat` says that nothing is there
  | .markerExists => (!c.fails && (dir manifestFile).isSome, dir)
  | .removeMarker =>
      if c.fails then (.error c.detail, dir)
      else (.ok (), Function.update dir manifestFile none)
  | .fetchManifest => (if c.fails then .error c.detail else .ok (c.remote manifestFile), dir)
  | .fetchToFile name dest =>
      if c.fails then (.error c.detail, cutOff dir dest (c.remote name) c)
      else (.ok (UInt64.ofNat (c.remote name).length, sha256Hex setup.sha (c.remote name)),
        Function.update dir dest (some (c.remote name)))
  | .rename source dest =>
      match c.fails, dir source with
      | false, some bytes =>
          (.ok (), Function.update (Function.update dir source none) dest (some bytes))
      | _, _ => (.error c.detail, dir)
  | .writeMarker bytes =>
      if c.fails then (.error c.detail, cutOff dir manifestFile bytes c)
      else (.ok (), Function.update dir manifestFile (some bytes))

def machine : Machine signature BundleDir Choice Unit where
  apply _ := perform setup

/-! ## The program -/

/-- The name a file is downloaded under. -/
def stagedName (name : String) : String := ".partial-" ++ name

/-- One file of the bundle. -/
def provisionFile (file : AssetFile) : ExceptT String AssetM Unit := do
  let (bytes, actual) ← ExceptT.mk (call (.fetchToFile file.name (stagedName file.name)))
  rejectIf (bytes ≠ file.bytes)
    s!"model assets not provisioned: {setup.label}/{file.name} is {bytes} bytes, manifest says {file.bytes}"
  rejectIf (actual ≠ file.sha256)
    s!"model assets not provisioned: {setup.label}/{file.name} sha256 {actual} does not match manifest {file.sha256}"
  ExceptT.mk (Except.mapError
    (fun error => s!"model assets not provisioned: staging {file.name}: {error}") <$>
    call (.rename (stagedName file.name) file.name))

/-- The files of the bundle, one after the other. -/
def provisionFiles : List AssetFile → ExceptT String AssetM Unit
  | [] => pure ()
  | file :: rest => do
      provisionFile setup file
      provisionFiles rest

/-- The directory is there and has no marker. -/
def invalidate : ExceptT String AssetM Unit := do
  ExceptT.mk (Except.mapError
    (fun error => s!"model assets not provisioned: mkdir {setup.bundleDir}: {error}") <$>
    call .createDir)
  if ← (call .markerExists : AssetM Bool) then
    ExceptT.mk (Except.mapError
      (fun error => s!"model assets not provisioned: invalidating stale {manifestFile}: {error}") <$>
      call .removeMarker)
  else pure ()

/-- The bundle, its manifest last. -/
def refill : ExceptT String AssetM Unit := do
  let manifestBytes ← ExceptT.mk (call .fetchManifest)
  let manifest ← (setup.parse manifestBytes).mapError fun error =>
    s!"model assets not provisioned: {setup.label}/{manifestFile} is not a valid manifest: {error}"
  provisionFiles setup manifest.files
  ExceptT.mk (Except.mapError
    (fun error => s!"model assets not provisioned: writing {manifestFile}: {error}") <$>
    call (.writeMarker manifestBytes))

/-- `provision_with`. -/
def provisionWith : ExceptT String AssetM Unit := do
  if ← (call .assetsReady : AssetM Bool) then pure ()
  else do
    invalidate setup
    refill setup

/-! ## What a manifest in the directory means -/

/-- The file is there, with the size and digest that are listed. -/
def Exact (file : AssetFile) (dir : BundleDir) : Prop :=
  ∃ bytes, dir file.name = some bytes ∧ UInt64.ofNat bytes.length = file.bytes ∧
    sha256Hex setup.sha bytes = file.sha256

/-- The file is the listed one, or is not there. -/
def Right (file : AssetFile) (dir : BundleDir) : Prop :=
  Exact setup file dir ∨ dir file.name = none

/-- The names of a manifest: distinct, and none of them the manifest's own. -/
structure PlainNames (manifest : AssetManifest) : Prop where
  distinct : (manifest.files.map (·.name)).Nodup
  notManifest : ∀ file ∈ manifest.files, file.name ≠ manifestFile

/-- A manifest as it is published: its names are plain, and what is left of it when it is cut off does
not parse as another manifest. -/
def Published (bytes : Bytes) : Prop :=
  ∀ manifest, setup.parse bytes = .ok manifest → PlainNames manifest ∧
    ∀ cut, cut <+: bytes → ∀ manifest', setup.parse cut = .ok manifest' → manifest' = manifest

/-- The probe for the marker finds it where it is. -/
def MarkerSeen (op : AssetOp) (c : Choice) (dir : BundleDir) : Prop :=
  op = .markerExists → (dir manifestFile).isSome → c.fails = false

/-- A manifest in the directory tells the truth. -/
def MarkerSound (dir : BundleDir) : Prop :=
  ∀ manifest, localManifest setup dir = some manifest → ∀ file ∈ manifest.files, Right setup file dir

variable {setup}

theorem localManifest_eq_some {dir : BundleDir} {manifest : AssetManifest}
    (h : localManifest setup dir = some manifest) :
    ∃ bytes, dir manifestFile = some bytes ∧ setup.parse bytes = .ok manifest := by
  obtain ⟨bytes, hbytes, h⟩ := Option.bind_eq_some_iff.mp h
  obtain ⟨_, -, h⟩ := Option.bind_eq_some_iff.mp h
  refine ⟨bytes, hbytes, ?_⟩
  cases hparse : setup.parse bytes with
  | error e =>
      rw [hparse] at h
      cases h
  | ok m =>
      rw [hparse] at h
      cases h
      rfl

/-- Without a manifest there is nothing to be wrong. -/
theorem markerSound_of_none {dir : BundleDir} (h : dir manifestFile = none) :
    MarkerSound setup dir := by
  intro manifest hlocal
  obtain ⟨bytes, hbytes, -⟩ := localManifest_eq_some hlocal
  rw [h] at hbytes
  cases hbytes

/-- A directory that is ready has exactly the files that its manifest lists. -/
theorem MarkerSound.exact_of_ready {dir : BundleDir} (h : MarkerSound setup dir)
    (hready : assetsReady setup dir = true) {manifest : AssetManifest}
    (hlocal : localManifest setup dir = some manifest) :
    ∀ file ∈ manifest.files, Exact setup file dir := by
  intro file hfile
  refine (h manifest hlocal file hfile).resolve_right fun hnone => ?_
  rw [assetsReady, hlocal] at hready
  have hsize := List.all_eq_true.mp hready file hfile
  rw [hnone] at hsize
  cases hsize

theorem stagedName_ne_manifestFile (name : String) : stagedName name ≠ manifestFile := by
  intro h
  have hfirst := congrArg (fun s : String => s.toList[0]?) h
  have hstart : ".partial-".toList = ['.', 'p', 'a', 'r', 't', 'i', 'a', 'l', '-'] := rfl
  simp only [stagedName, String.toList_append, hstart, List.cons_append,
    List.getElem?_cons_zero] at hfirst
  exact absurd hfirst (by decide)

/-! ## The steps -/

section Steps

variable {dir : BundleDir}

/-- What holds between two attempts, and what the choices must be. -/
abbrev contract (setup : Setup) : Contract (machine setup) :=
  Contract.solo (machine setup) (MarkerSound setup) fun op c dir =>
    Published setup (c.remote manifestFile) ∧ MarkerSeen op c dir

/-- In the middle of a refresh there is no manifest. -/
abbrev AfterOk {α : Type} (Q : α → BundleDir → Prop) : Except String α → BundleDir → Prop :=
  Contract.Safe.Outcome Q fun _ _ => True

/-- A write under another name, complete or not, leaves the directory without a manifest. -/
theorem cutOff_manifest {name : String} {bytes : Bytes} {c : Choice} (hne : name ≠ manifestFile)
    (hmanifest : dir manifestFile = none) : cutOff dir name bytes c manifestFile = none := by
  unfold cutOff
  cases c.written with
  | none => exact hmanifest
  | some n => exact (Function.update_of_ne hne.symm _ _).trans hmanifest

theorem perform_rename (setup : Setup) (c : Choice) {source dest : String} {bytes : Bytes}
    (h : dir source = some bytes) :
    perform setup (.rename source dest) c dir = if c.fails then (.error c.detail, dir)
      else (.ok (), Function.update (Function.update dir source none) dest (some bytes)) := by
  simp only [perform, h]
  cases c.fails <;> rfl

/-- The directory after a file was downloaded and moved to its name. -/
def moved (dir : BundleDir) (name : String) (bytes : Bytes) : BundleDir :=
  Function.update (Function.update (Function.update dir (stagedName name) (some bytes))
    (stagedName name) none) name (some bytes)

theorem moved_self (dir : BundleDir) (name : String) (bytes : Bytes) :
    moved dir name bytes name = some bytes := Function.update_self _ _ _

theorem moved_of_ne {name other : String} {bytes : Bytes} (hne : other ≠ name)
    (hne' : other ≠ stagedName name) : moved dir name bytes other = dir other := by
  rw [moved, Function.update_of_ne hne, Function.update_of_ne hne', Function.update_of_ne hne']

/-- A file that was right is right after another one came, or was overwritten and is gone. -/
theorem right_moved {file : AssetFile} {name : String} {bytes : Bytes} (hne : file.name ≠ name)
    (h : Right setup file dir) : Right setup file (moved dir name bytes) := by
  by_cases hstaged : file.name = stagedName name
  · right
    rw [moved, Function.update_of_ne hne, hstaged, Function.update_self]
  · unfold Right Exact at h ⊢
    rwa [moved_of_ne hne hstaged]

/-- The download of a file under its staged name, and its move to its own: afterwards the file is
there, and every other file that was right still is. -/
theorem safe_provisionFile {file : AssetFile} {others : List AssetFile}
    (hmanifest : dir manifestFile = none) (hname : file.name ≠ manifestFile)
    (hothers : ∀ other ∈ others, other.name ≠ file.name ∧ Right setup other dir) :
    (contract setup).Safe () (provisionFile setup file).run
      (AfterOk fun _ dir' => dir' manifestFile = none ∧ Exact setup file dir' ∧
        ∀ other ∈ others, Right setup other dir') dir := by
  have hstaged := stagedName_ne_manifestFile file.name
  unfold provisionFile
  refine bindExcept (Contract.Safe.solo fun c _ _ => ?_)
  cases hfails : c.fails with
  | true =>
      have hresult : (machine setup).apply () (.fetchToFile file.name (stagedName file.name)) c dir =
          (.error c.detail, cutOff dir (stagedName file.name) (c.remote file.name) c) :=
        if_pos hfails
      rw [hresult]
      exact ⟨markerSound_of_none (cutOff_manifest hstaged hmanifest), trivial⟩
  | false =>
      have hresult : (machine setup).apply () (.fetchToFile file.name (stagedName file.name)) c dir =
          (.ok (UInt64.ofNat (c.remote file.name).length, sha256Hex setup.sha (c.remote file.name)),
            Function.update dir (stagedName file.name) (some (c.remote file.name))) :=
        if_neg (by simp [hfails])
      have hnone : Function.update dir (stagedName file.name) (some (c.remote file.name))
          manifestFile = none := by rwa [Function.update_of_ne hstaged.symm]
      rw [hresult]
      refine ⟨markerSound_of_none hnone, ?_⟩
      refine bindCheck (fun _ hsize dir₁ hrely₁ _ => ?_) fun _ _ _ _ _ => trivial
      refine bindCheck (fun _ hsha dir₂ hrely₂ _ => ?_) fun _ _ _ _ _ => trivial
      obtain rfl := Contract.rely_solo hrely₁
      obtain rfl := Contract.rely_solo hrely₂
      rw [rejectIf_eq_ok, not_not] at hsize hsha
      refine mapErrorExcept (x := ExceptT.mk (call (.rename (stagedName file.name) file.name)))
        (Contract.Safe.solo fun c' _ _ => ?_)
      have hrename : (machine setup).apply () (.rename (stagedName file.name) file.name) c'
            (Function.update dir (stagedName file.name) (some (c.remote file.name))) =
          if c'.fails then (.error c'.detail,
            Function.update dir (stagedName file.name) (some (c.remote file.name)))
          else (.ok (), moved dir file.name (c.remote file.name)) :=
        perform_rename setup c' (Function.update_self _ _ _)
      rw [hrename]
      split
      · exact ⟨markerSound_of_none hnone, trivial⟩
      · have hgone : moved dir file.name (c.remote file.name) manifestFile = none := by
          rw [moved_of_ne hname.symm hstaged.symm]
          exact hmanifest
        refine ⟨markerSound_of_none hgone, hgone, ?_, fun other hother => ?_⟩
        · exact ⟨_, moved_self dir file.name _, hsize, hsha⟩
        · exact right_moved (hothers other hother).1 (hothers other hother).2

/-- All files, by induction on those still to come: those that are done stay right. -/
theorem safe_provisionFiles {files : List AssetFile} (done : List AssetFile)
    (hmanifest : dir manifestFile = none)
    (hnames : ∀ file ∈ files, file.name ≠ manifestFile)
    (hdistinct : ((done ++ files).map (·.name)).Nodup) (hdone : ∀ file ∈ done, Right setup file dir) :
    (contract setup).Safe () (provisionFiles setup files).run
      (AfterOk fun _ dir' => dir' manifestFile = none ∧ ∀ file ∈ done ++ files, Right setup file dir')
      dir := by
  induction files generalizing done dir with
  | nil =>
      refine pureExcept fun dir' hrely _ => ?_
      rw [Contract.rely_solo hrely, List.append_nil]
      exact ⟨hmanifest, hdone⟩
  | cons file rest ih =>
      obtain ⟨hname, hrest⟩ := List.forall_mem_cons.mp hnames
      have hapart : ∀ other ∈ done, other.name ≠ file.name := by
        intro other hother heq
        rw [List.map_append, List.map_cons] at hdistinct
        refine (List.disjoint_of_nodup_append hdistinct) (List.mem_map_of_mem hother) ?_
        rw [heq]
        exact List.mem_cons_self
      refine bindExcept ((safe_provisionFile hmanifest hname fun other hother =>
        ⟨hapart other hother, hdone other hother⟩).mono fun r dir₁ _ hr => ?_)
      cases r with
      | error e => trivial
      | ok u =>
          obtain ⟨hmanifest₁, hexact, hothers⟩ := hr
          rw [List.append_cons] at hdistinct ⊢
          refine ih _ hmanifest₁ hrest hdistinct fun other hother => ?_
          rcases List.mem_append.mp hother with hother | hother
          · exact hothers other hother
          · obtain rfl := List.mem_singleton.mp hother
            exact .inl hexact

/-- The manifest, complete or cut off: it says what the directory holds. -/
theorem safe_writeMarker {manifestBytes : Bytes} {manifest : AssetManifest}
    (hparse : setup.parse manifestBytes = .ok manifest) (hpublished : Published setup manifestBytes)
    (hmanifest : dir manifestFile = none) (hright : ∀ file ∈ manifest.files, Right setup file dir) :
    (contract setup).Safe () (call (.writeMarker manifestBytes)) (fun _ _ => True) dir := by
  obtain ⟨hnames, hcuts⟩ := hpublished manifest hparse
  have hsound : ∀ cut, cut <+: manifestBytes →
      MarkerSound setup (Function.update dir manifestFile (some cut)) := by
    intro cut hcut manifest' hlocal file hfile
    obtain ⟨bytes, hbytes, hparse'⟩ := localManifest_eq_some hlocal
    rw [Function.update_self] at hbytes
    cases hbytes
    obtain rfl := hcuts _ hcut manifest' hparse'
    have hfile' := hright file hfile
    unfold Right Exact at hfile' ⊢
    rwa [Function.update_of_ne (hnames.notManifest file hfile)]
  refine Contract.Safe.solo fun c _ _ => ⟨?_, trivial⟩
  show MarkerSound setup (perform setup (.writeMarker manifestBytes) c dir).2
  simp only [perform]
  split
  · show MarkerSound setup (cutOff dir manifestFile manifestBytes c)
    unfold cutOff
    cases c.written with
    | none => exact markerSound_of_none hmanifest
    | some n => exact hsound _ (List.take_prefix n manifestBytes)
  · exact hsound _ (List.prefix_refl manifestBytes)

/-- After the marker has gone, the rest of the refresh. -/
theorem safe_refill (hmanifest : dir manifestFile = none) :
    (contract setup).Safe () (refill setup).run (AfterOk fun _ _ => True) dir := by
  unfold refill
  refine bindExcept (Contract.Safe.solo fun c hinv hok => ?_)
  obtain ⟨hpublished, -⟩ := hok
  refine ⟨hinv, ?_⟩
  cases hfetched : ((machine setup).apply () .fetchManifest c dir).1 with
  | error e => trivial
  | ok manifestBytes =>
      obtain rfl : c.remote manifestFile = manifestBytes := by
        have hanswer : (if c.fails then .error c.detail else .ok (c.remote manifestFile) :
            Except String Bytes) = .ok manifestBytes := hfetched
        split at hanswer
        · cases hanswer
        · exact Except.ok.inj hanswer
      refine bindCheck (fun manifest hparse dir₁ hrely₁ _ => ?_) fun _ _ _ _ _ => trivial
      obtain rfl := Contract.rely_solo hrely₁
      have hparse := mapError_eq_ok.mp hparse
      have hnames := (hpublished manifest hparse).1
      refine bindExcept ((safe_provisionFiles [] hmanifest hnames.notManifest
        hnames.distinct nofun).mono fun r dir₂ _ hr => ?_)
      cases r with
      | error e => trivial
      | ok u =>
          refine mapErrorExcept (x := ExceptT.mk (call (.writeMarker (c.remote manifestFile)))) ?_
          refine (safe_writeMarker hparse hpublished hr.1 hr.2).mono fun r _ _ _ => ?_
          cases r <;> trivial

/-- The marker goes before anything else is touched. -/
theorem safe_invalidate :
    (contract setup).Safe () (invalidate setup).run
      (AfterOk fun _ dir' => dir' manifestFile = none) dir := by
  unfold invalidate
  refine bindExcept (mapErrorExcept (x := ExceptT.mk (call .createDir)) (Contract.Safe.solo
    fun c hinv _ => ⟨hinv, ?_⟩))
  cases ((machine setup).apply () .createDir c dir).1 with
  | error e => trivial
  | ok u =>
      refine bindExcept (liftExcept (Contract.Safe.solo fun c' hinv' hok => ⟨hinv', ?_⟩))
      show (contract setup).Safe () (ExceptT.run
        (if (!c'.fails && (dir manifestFile).isSome) = true then _ else _)) _ dir
      split
      · refine mapErrorExcept (x := ExceptT.mk (call .removeMarker)) (Contract.Safe.solo
          fun c'' hinv'' _ => ?_)
        have hresult : (machine setup).apply () .removeMarker c'' dir =
          if c''.fails then (.error c''.detail, dir)
          else (.ok (), Function.update dir manifestFile none) := rfl
        rw [hresult]
        split
        · exact ⟨hinv'', trivial⟩
        · have hnone : Function.update dir manifestFile none manifestFile = none :=
            Function.update_self _ _ _
          exact ⟨markerSound_of_none hnone, hnone⟩
      · rename_i habsent
        refine pureExcept fun dir' hrely _ => ?_
        rw [Contract.rely_solo hrely]
        -- had the marker been there, the probe would have found it
        apply Option.not_isSome_iff_eq_none.mp
        intro hpresent
        have hfound : c'.fails = false := hok.2 rfl hpresent
        exact habsent (by rw [hfound, hpresent]; rfl)

theorem safe_provisionWith :
    (contract setup).Safe () (provisionWith setup).run (fun _ _ => True) dir := by
  unfold provisionWith
  refine Contract.Safe.mono (Q := AfterOk fun _ _ => True) ?_ fun _ _ _ _ => trivial
  refine bindExcept (liftExcept (Contract.Safe.solo fun c hinv _ => ⟨hinv, ?_⟩))
  cases ((machine setup).apply () .assetsReady c dir).1 with
  | true => exact pureExcept fun _ _ _ => trivial
  | false =>
      refine bindExcept (safe_invalidate.mono fun r dir' _ hr => ?_)
      cases r with
      | error e => trivial
      | ok u => exact safe_refill hr

end Steps

/-- However many attempts are made, fail or stop anywhere, and whatever the remote bundle is replaced
by meanwhile: if no probe for the marker misses it, a directory that is ready has every file that its
manifest lists, with the listed size and digest. -/
theorem ready_sound {attempts : List (List Choice)}
    (hpublished : ∀ attempt ∈ attempts, ∀ c ∈ attempt, Published setup (c.remote manifestFile))
    {dir : BundleDir} (hstart : dir manifestFile = none)
    (hseen : (machine setup).AttemptsAllowed MarkerSeen (provisionWith setup).run dir attempts)
    (hready : assetsReady setup ((machine setup).attempts (provisionWith setup).run dir attempts) = true)
    {manifest : AssetManifest}
    (hlocal : localManifest setup ((machine setup).attempts (provisionWith setup).run dir attempts) =
      some manifest) :
    ∀ file ∈ manifest.files,
      Exact setup file ((machine setup).attempts (provisionWith setup).run dir attempts) := by
  have hallowed : (machine setup).AttemptsAllowed
      (fun op c dir => Published setup (c.remote manifestFile) ∧ MarkerSeen op c dir)
      (provisionWith setup).run dir attempts :=
    hseen.mono fun _ attempt hattempt c hc _ h => ⟨hpublished attempt hattempt c hc, h⟩
  have hsound : MarkerSound setup ((machine setup).attempts (provisionWith setup).run dir attempts) :=
    Machine.attempts_inv (fun _ _ => safe_provisionWith) (markerSound_of_none hstart) hallowed
  exact hsound.exact_of_ready hready hlocal

/-! ## A bundle of one file -/

namespace OneFile

/-- The file, and the one that replaces it, of the same size. -/
def model : Bytes := [0x47, 0x47, 0x55, 0x46]
def newModel : Bytes := [0x47, 0x47, 0x55, 0x47]

def sha : Sha256 := { digest := Fips180.sha256, length_digest := Fips180.length_sha256 }

def file (bytes : Bytes) : AssetFile where
  name := "model.gguf"
  bytes := 4
  sha256 := sha256Hex sha bytes

/-- The text of the manifest. -/
def manifestBytes (bytes : Bytes) : Bytes :=
  utf8 (Json.obj [("files", .arr [.obj [("name", .str "model.gguf"), ("bytes", .num "4"),
    ("sha256", .str (sha256Hex sha bytes))]])]).render

/-- Both manifests parse, and nothing else does. -/
def served : Setup where
  sha := sha
  parse bytes :=
    if bytes = manifestBytes model then .ok { files := [file model] }
    else if bytes = manifestBytes newModel then .ok { files := [file newModel] }
    else .error "EOF while parsing"
  label := "s3://models/ltembed"
  bundleDir := "/tmp/ltembed"

/-- A step, while the remote bundle has this file. -/
def choice (remote : Bytes) (fails : Bool) : Choice where
  fails := fails
  detail := ""
  remote name := if name = manifestFile then manifestBytes remote else remote
  written := none

theorem manifestBytes_ne : ¬manifestBytes model <+: manifestBytes newModel ∧
    ¬manifestBytes newModel <+: manifestBytes model := by decide +kernel

theorem published (remote : Bytes) (fails : Bool) :
    Published served ((choice remote fails).remote manifestFile) := by
  have hparse : ∀ bytes manifest, served.parse bytes = .ok manifest →
      (bytes = manifestBytes model ∧ manifest = { files := [file model] }) ∨
        (bytes = manifestBytes newModel ∧ manifest = { files := [file newModel] }) := by
    intro bytes manifest hok
    simp only [served] at hok
    split at hok
    · exact .inl ⟨‹_›, (Except.ok.inj hok).symm⟩
    · split at hok
      · exact .inr ⟨‹_›, (Except.ok.inj hok).symm⟩
      · cases hok
  have hremote : (choice remote fails).remote manifestFile = manifestBytes remote := by
    simp only [choice, if_true]
  rw [hremote]
  intro manifest hmanifest
  refine ⟨?_, fun cut hcut manifest' hmanifest' => ?_⟩
  · have hnames : ∀ bytes, PlainNames { files := [file bytes] } := fun _ =>
      ⟨List.nodup_singleton _, fun f hf => by
        rw [List.mem_singleton.mp hf]
        show "model.gguf" ≠ manifestFile
        decide⟩
    rcases hparse _ _ hmanifest with ⟨-, rfl⟩ | ⟨-, rfl⟩
    · exact hnames model
    · exact hnames newModel
  · -- neither text is the start of the other
    rcases hparse _ _ hmanifest with ⟨hbytes, heq⟩ | ⟨hbytes, heq⟩ <;>
      rcases hparse _ _ hmanifest' with ⟨hbytes', heq'⟩ | ⟨hbytes', heq'⟩
    · rw [heq, heq']
    · rw [hbytes, hbytes'] at hcut
      exact absurd hcut manifestBytes_ne.2
    · rw [hbytes, hbytes'] at hcut
      exact absurd hcut manifestBytes_ne.1
    · rw [heq, heq']

/-- An attempt that stops before it writes the marker, one over a new bundle that goes through, and one
that finds it. -/
def resumed : List (List Choice) :=
  [List.replicate 6 (choice model false), List.replicate 7 (choice newModel false),
    List.replicate 2 (choice model false)]

theorem resumed_choices {attempt : List Choice} (h : attempt ∈ resumed) {c : Choice} (hc : c ∈ attempt) :
    Published served (c.remote manifestFile) ∧ c.fails = false := by
  simp only [resumed, List.mem_cons, List.not_mem_nil, or_false] at h
  rcases h with rfl | rfl | rfl <;> rw [List.eq_of_mem_replicate hc]
  · exact ⟨published model false, rfl⟩
  · exact ⟨published newModel false, rfl⟩
  · exact ⟨published model false, rfl⟩

/-- An attempt that goes through, and one over a new bundle that stops after it has replaced the file;
two of its looks at the directory fail, `assets_ready` and the probe for the marker. -/
def missedMarker : List (List Choice) :=
  [List.replicate 7 (choice model false),
    [choice newModel true, choice newModel false, choice newModel true, choice newModel false,
      choice newModel false, choice newModel false]]

theorem missedMarker_published {attempt : List Choice} (h : attempt ∈ missedMarker) {c : Choice}
    (hc : c ∈ attempt) : Published served (c.remote manifestFile) := by
  simp only [missedMarker, List.mem_cons, List.not_mem_nil, or_false] at h
  rcases h with rfl | rfl
  · rw [List.eq_of_mem_replicate hc]
    exact published model false
  · simp only [List.mem_cons, List.not_mem_nil, or_false] at hc
    rcases hc with rfl | rfl | rfl | rfl | rfl | rfl <;> exact published newModel _

end OneFile

/-- The file that was downloaded last is there as its manifest lists it. -/
theorem ready_sound_resumed : Exact OneFile.served (OneFile.file OneFile.newModel)
    ((machine OneFile.served).attempts (provisionWith OneFile.served).run (fun _ => none)
      OneFile.resumed) := by
  have hrun : assetsReady OneFile.served ((machine OneFile.served).attempts
        (provisionWith OneFile.served).run (fun _ => none) OneFile.resumed) = true ∧
      localManifest OneFile.served ((machine OneFile.served).attempts
        (provisionWith OneFile.served).run (fun _ => none) OneFile.resumed) =
          some { files := [OneFile.file OneFile.newModel] } := by
    decide +kernel
  have hseen : (machine OneFile.served).AttemptsAllowed MarkerSeen (provisionWith OneFile.served).run
      (fun _ => none) OneFile.resumed :=
    (Machine.attemptsAllowed_true _ _ _ _).mono fun _ attempt hattempt c hc _ _ _ _ =>
      (OneFile.resumed_choices hattempt hc).2
  exact ready_sound (fun attempt hattempt c hc => (OneFile.resumed_choices hattempt hc).1) rfl hseen
    hrun.1 hrun.2 _ List.mem_cons_self

/-- A directory with the new file and the old manifest is ready: the sizes agree, the digests do not. -/
theorem missedMarker_ready : ¬∀ attempts : List (List Choice),
    (∀ attempt ∈ attempts, ∀ c ∈ attempt, Published OneFile.served (c.remote manifestFile)) →
      let dir := (machine OneFile.served).attempts (provisionWith OneFile.served).run (fun _ => none) attempts
      assetsReady OneFile.served dir = true → ∀ manifest, localManifest OneFile.served dir = some manifest →
        ∀ file ∈ manifest.files, Exact OneFile.served file dir := by
  intro h
  have hrun : assetsReady OneFile.served ((machine OneFile.served).attempts
        (provisionWith OneFile.served).run (fun _ => none) OneFile.missedMarker) = true ∧
      localManifest OneFile.served ((machine OneFile.served).attempts
        (provisionWith OneFile.served).run (fun _ => none) OneFile.missedMarker) =
          some { files := [OneFile.file OneFile.model] } ∧
      (machine OneFile.served).attempts (provisionWith OneFile.served).run (fun _ => none)
        OneFile.missedMarker "model.gguf" = some OneFile.newModel ∧
      sha256Hex OneFile.sha OneFile.newModel ≠ sha256Hex OneFile.sha OneFile.model := by
    decide +kernel
  obtain ⟨hready, hlocal, hbytes, hdigest⟩ := hrun
  obtain ⟨bytes, hfound, -, hsha⟩ := h OneFile.missedMarker
    (fun attempt hattempt c hc => OneFile.missedMarker_published hattempt hc) hready _ hlocal _
    List.mem_cons_self
  obtain rfl : OneFile.newModel = bytes := Option.some.inj (hbytes.symm.trans hfound)
  exact hdigest hsha

end ModelAssets

end LTSearch
