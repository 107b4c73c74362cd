/-
# LTSearch.Storage.StagedPublish -- stage, then rename

Artifacts are written under a staging directory and renamed to their places once all of them are
there.  After a failed rename what has been moved is removed again.
-/
import LTSearch.Error
import LTSearch.Foundation.Checks
import LTSearch.Foundation.FileSystem

namespace LTSearch

open LTSearch.Foundation FileTree

namespace StagedDir

abbrev FsM := Prog fsSignature

abbrev IndexM := ExceptT IndexError FsM

abbrev call (op : FsOp) : FsM op.Ans := Prog.ask (S := fsSignature) op

/-- A path as it is shown. -/
def displayPath (p : Path) : String := "/" ++ "/".intercalate p

/-- An operation whose error is reported as an operation error. -/
def callMapped (x : FsM (Except String Unit)) (message : String → String) : IndexM Unit :=
  ExceptT.mk (Except.mapError (fun source => IndexError.operation (message source)) <$> x)

/-- `parent()`. -/
def parentOf (p : Path) : Except IndexError Path :=
  if p = [] then .error (.operation s!"path {displayPath p} has no parent") else .ok p.dropLast

/-- `move_into_place`. -/
def moveIntoPlace (source destination : Path) : IndexM Unit := do
  let parent ← parentOf destination
  callMapped (call (.createDirAll parent)) fun error =>
    s!"failed to create directory {displayPath parent}: {error}"
  callMapped (call (.rename source destination)) fun error =>
    s!"failed to publish staged artifact from {displayPath source} to {displayPath destination}: {error}"

/-- The entries of a directory, one after the other. -/
def removeEntries (p : Path) : List String → ExceptT String FsM Unit
  | [] => pure ()
  | name :: rest => do
      ExceptT.mk (call (.remove (p ++ [name])))
      removeEntries p rest

/-- `fs::remove_dir_all`: what is in the directory goes before the directory itself. -/
def removeDirAll (p : Path) : ExceptT String FsM Unit := do
  let names ← ExceptT.mk (call (.readDir p))
  removeEntries p names
  ExceptT.mk (call (.removeDir p))

/-- `remove_dir_all_if_exists`. -/
def removeDirAllIfExists (p : Path) : IndexM Unit := do
  if ← (call (.exists p) : FsM Bool) then
    callMapped (removeDirAll p).run fun source =>
      s!"failed to remove directory {displayPath p}: {source}"
  else pure ()

/-- `remove_path_if_exists`. -/
def removePathIfExists (p : Path) : IndexM Unit := do
  if ← (call (.exists p) : FsM Bool) then
    if ← (call (.isDir p) : FsM Bool) then
      callMapped (removeDirAll p).run fun source =>
        s!"failed to remove directory {displayPath p}: {source}"
    else
      callMapped (call (.removeFile p)) fun source =>
        s!"failed to remove file {displayPath p}: {source}"
  else pure ()

/-- `combine_cleanup_results`. -/
def combineCleanupResults (results : List (Except IndexError Unit)) : Except IndexError Unit :=
  match results.filterMap fun result => match result with
    | .ok _ => none
    | .error e => some e.display with
  | [] => .ok ()
  | errors => .error (.operation ("; ".intercalate errors))

/-- `append_cleanup_failure`. -/
def appendCleanupFailure (error : IndexError) : Except IndexError Unit → IndexError
  | .ok _ => error
  | .error cleanupError =>
      .operation s!"{error.display}; cleanup failed: {cleanupError.display}"

/-- The destinations that were moved so far are removed, each whatever became of the others. -/
def removeMoved : List Path → FsM (List (Except IndexError Unit))
  | [] => return []
  | destination :: rest => do
      let result ← (removePathIfExists destination).run
      let results ← removeMoved rest
      return result :: results

/-- What follows a failed move. -/
def rollBack (root : Path) (moved : List Path) (error : IndexError) :
    FsM (Except IndexError Unit) := do
  let cleanups ← removeMoved moved
  let last ← (removeDirAllIfExists root).run
  return .error (appendCleanupFailure error (combineCleanupResults (cleanups ++ [last])))

/-- The loop of `commit`. -/
def commitMoves (root : Path) : List Path → List (Path × Path) → FsM (Except IndexError Unit)
  | _, [] => (removeDirAllIfExists root).run
  | moved, (source, destination) :: rest => do
      match ← (moveIntoPlace source destination).run with
      | .error error => rollBack root moved error
      | .ok _ => commitMoves root (moved ++ [destination]) rest

/-- `StagedDir::commit`. -/
def commit (root : Path) (moves : List (Path × Path)) : FsM (Except IndexError Unit) :=
  commitMoves root [] moves

/-- The backup of a directory: next to it, under a name of its own. -/
def backupOf (destination : Path) (name nonce : String) : Path :=
  destination.dropLast ++ [s!".{name}-backup-{nonce}"]

/-- Where the old directory could not be moved aside, nothing has happened but the staging. -/
def notAside (root destination : Path) (error : String) : FsM (Except IndexError Unit) := do
  let cleanup ← (removeDirAllIfExists root).run
  return .error (appendCleanupFailure
    (.operation s!"failed to move previous directory {displayPath destination} aside: {error}") cleanup)

/-- Where the staged directory could not be moved, the old one goes back. -/
def restore (root destination backup : Path) (hadPrevious : Bool) (error : String) :
    FsM (Except IndexError Unit) := do
  let restored ← if hadPrevious then
      (callMapped (call (.rename backup destination)) fun restoreError =>
        s!"failed to restore previous directory {displayPath destination}: {restoreError}").run
    else pure (.ok ())
  let cleanup ← (removeDirAllIfExists root).run
  return .error (appendCleanupFailure
    (.operation s!"failed to publish staged artifact from {displayPath root} to {displayPath destination}: {error}")
    (combineCleanupResults [restored, cleanup]))

/-- The staged directory gets its place. -/
def publish (root destination backup : Path) (hadPrevious : Bool) :
    FsM (Except IndexError Unit) := do
  match ← call (.rename root destination) with
  | .error error => restore root destination backup hadPrevious error
  | .ok _ => if hadPrevious then (removeDirAllIfExists backup).run else return .ok ()

/-- `StagedDir::commit_replace_dir`, once the backup has its name. -/
def replaceDir (root destination backup : Path) : FsM (Except IndexError Unit) := do
  if ← call (.exists destination) then
    match ← call (.rename destination backup) with
    | .error error => notAside root destination error
    | .ok _ => publish root destination backup true
  else publish root destination backup false

/-- `StagedDir::commit_replace_dir`.  The nonce is what the clock says. -/
def commitReplaceDir (root destination : Path) (nonce : Except String String) :
    FsM (Except IndexError Unit) :=
  match destination.getLast?, nonce with
  | none, _ => return .error (.operation s!"path {displayPath destination} has no parent")
  | some _, .error source =>
      return .error (.operation s!"failed to calculate backup timestamp: {source}")
  | some name, .ok nonce => replaceDir root destination (backupOf destination name nonce)

end StagedDir

end LTSearch
