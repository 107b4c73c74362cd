/-
# LTSearch.Indexing.UploadTree -- which files an upload of a directory reads

Before a directory is uploaded its tree is checked: every symbolic link in it must lead into the
artifact root.  The check does not look at what is below a link; the upload follows it.
-/
import LTSearch.Error
import LTSearch.Foundation.Descent
import LTSearch.Query.ShardTree

namespace LTSearch

open LTSearch.Foundation
open LTSearch.Foundation.FileTree (Path)

/-! ## Files, directories and links -/

/-- What a path leads to, under the path that has no link in it. -/
inductive FsNode where
  | file (canonical : Path)
  | dir (canonical : Path)
  deriving DecidableEq

def FsNode.canonical : FsNode → Path
  | file canonical => canonical
  | dir canonical => canonical

/-- What an entry of a directory is. -/
inductive DirEntry where
  | file
  | dir
  /-- a symbolic link, with what it leads to, if anything -/
  | link (target : Option FsNode)
  deriving DecidableEq

namespace DirEntry

/-- What the entry leads to, in its directory. -/
def node (c : Path) (name : String) : DirEntry → Option FsNode
  | file => some (.file (c ++ [name]))
  | dir => some (.dir (c ++ [name]))
  | link target => target

/-- The directory a link leads to. -/
def linked : DirEntry → Option Path
  | link (some (.dir c)) => some c
  | _ => none

/-- The file a link leads to. -/
def linkedFile : DirEntry → Option Path
  | link (some (.file f)) => some f
  | _ => none

end DirEntry

/-- A finite file system.  Links may lead to any directory, also to one above them, and to any file. -/
structure FsGraph where
  directories : Finset Path
  entries : Path → List (String × DirEntry)
  /-- what the system says of a path that cannot be read -/
  reason : Path → String
  root_mem : [] ∈ directories
  child_mem : ∀ c ∈ directories, ∀ e ∈ entries c, e.2 = .dir → c ++ [e.1] ∈ directories
  linked_mem : ∀ c ∈ directories, ∀ e ∈ entries c, ∀ t ∈ e.2.linked, t ∈ directories
  linked_file : ∀ c ∈ directories, ∀ e ∈ entries c, ∀ f ∈ e.2.linkedFile,
    ∃ d ∈ directories, ∃ e' ∈ entries d, e'.2 = .file ∧ f = d ++ [e'.1]
  parent_mem : ∀ c ∈ directories, c ≠ [] →
    c.dropLast ∈ directories ∧ ∃ e ∈ entries c.dropLast, e.2 = .dir ∧ c = c.dropLast ++ [e.1]
  names_nodup : ∀ c ∈ directories, ((entries c).map (·.1)).Nodup

namespace FsGraph

variable (fs : FsGraph)

/-- The order in which the entries of each directory are listed. -/
structure Listing where
  list : Path → List (String × DirEntry)
  perm : ∀ c, (list c).Perm (fs.entries c)

/-- One name further, and through a link if it is one. -/
def follow (c : Path) (name : String) : Option FsNode :=
  ((fs.entries c).lookup name).bind (DirEntry.node c name)

/-- The rest of a path. -/
def resolveFrom : FsNode → Path → Option FsNode
  | node, [] => some node
  | .file _, _ :: _ => none
  | .dir c, name :: rest => (fs.follow c name).bind fun node => resolveFrom node rest

/-- What a path leads to. -/
def resolve (path : Path) : Option FsNode := fs.resolveFrom (.dir []) path

/-- `Path::is_dir` -/
def isDir (path : Path) : Bool :=
  match fs.resolve path with
  | some (.dir _) => true
  | _ => false

/-- `Path::canonicalize` -/
def canonicalize (path : Path) : Except String Path :=
  match fs.resolve path with
  | some node => .ok node.canonical
  | none => .error (fs.reason path)

/-- `fs::symlink_metadata`: the last name of the path is not followed. -/
def symlinkMetadata (path : Path) : Except String DirEntry :=
  match path.getLast? with
  | none => .ok .dir
  | some name =>
      match fs.resolve path.dropLast with
      | some (.dir c) =>
          match (fs.entries c).lookup name with
          | some entry => .ok entry
          | none => .error (fs.reason path)
      | _ => .error (fs.reason path)

variable {fs} in
/-- `fs::read_dir`, with the names in the order in which they come. -/
def readDir (listing : fs.Listing) (path : Path) : Except String (List String) :=
  match fs.resolve path with
  | some (.dir c) => .ok ((listing.list c).map (·.1))
  | _ => .error (fs.reason path)

/-- `artifact_source_path`, of the names in a key that `validate_relative_storage_key` has accepted: the
artifact's place, free of links. -/
def artifactSourcePath (artifactRoot key : Path) : Except PublishError Path := do
  let root ← (fs.canonicalize artifactRoot).mapError fun source => .operation
    s!"failed to canonicalize artifact root {displayPath artifactRoot}: {source}"
  let joined := artifactRoot ++ key
  let canonical ← (fs.canonicalize joined).mapError fun source => .operation
    s!"failed to canonicalize artifact source {displayPath joined}: {source}"
  rejectIf (¬root <+: canonical) (.operation
    s!"artifact source escapes artifact root: {displayPath joined} -> {displayPath canonical}")
  return canonical

variable {fs} (listing : fs.Listing)

/-! ## The check -/

/-- The loop of `validate_directory_tree_within_root`.  The last path pushed is the first one taken. -/
def validateStack (root : Path) : Nat → List Path → Option (Except PublishError Unit)
  | _, [] => some (.ok ())
  | 0, _ :: _ => none
  | fuel + 1, current :: stack =>
      match fs.symlinkMetadata current with
      | .error source => some (.error (.operation
          s!"failed to inspect artifact source {displayPath current}: {source}"))
      | .ok (.link _) =>
          match fs.canonicalize current with
          | .error source => some (.error (.operation
              s!"failed to canonicalize artifact source {displayPath current}: {source}"))
          | .ok canonical =>
              if root <+: canonical then validateStack root fuel stack
              else some (.error (.operation
                s!"artifact source escapes artifact root: {displayPath current} -> {displayPath canonical}"))
      | .ok _ =>
          if fs.isDir current then
            match readDir listing current with
            | .error source => some (.error (.operation
                s!"failed to read artifact directory {displayPath current}: {source}"))
            | .ok names =>
                validateStack root fuel ((names.map fun name => current ++ [name]).reverse ++ stack)
          else validateStack root fuel stack

/-- `validate_directory_tree_within_root` -/
def validateDirectoryTreeWithinRoot (fuel : Nat) (artifactRoot directory : Path) :
    Option (Except PublishError Unit) :=
  match fs.resolve directory with
  | none => some (.error (.operation
      s!"failed to inspect artifact source {displayPath directory}: {fs.reason directory}"))
  | some (.file _) => some (.error (.operation
      s!"publish source is not a directory: {displayPath directory}"))
  | some (.dir _) =>
      match fs.canonicalize artifactRoot with
      | .error source => some (.error (.operation
          s!"failed to canonicalize artifact root {displayPath artifactRoot}: {source}"))
      | .ok root => validateStack listing root fuel [directory]

/-! ## The uploads -/

/-- `upload_file` of the S3 back end: the file is read, and put under its key. -/
def uploadFile (fs : FsGraph) (put : String → Except PublishError Unit) (key : String) (source : Path) :
    Outcome Path PublishError :=
  match fs.resolve source with
  | some (.file c) => ([c], put key)
  | _ => ([], .error (.operation s!"failed to read {displayPath source}: {fs.reason source}"))

/-- `upload_directory` of the S3 back end. -/
def uploadDirectory (put : String → Except PublishError Unit) :
    Nat → String → Path → Option (Outcome Path PublishError)
  | 0, _, _ => none
  | fuel + 1, key, source =>
      if fs.isDir source then
        match readDir listing source with
        | .error error => some ([], .error (.operation
            s!"failed to read directory {displayPath source}: {error}"))
        | .ok names => eachOf (fun name =>
            if fs.isDir (source ++ [name]) then
              uploadDirectory put fuel (key ++ "/" ++ name) (source ++ [name])
            else some (fs.uploadFile put (key ++ "/" ++ name) (source ++ [name]))) names
      else some ([], .error (.operation s!"missing source directory {displayPath source}"))

/-- `copy_tree` of the local back end.  What becomes of a new directory and of a written file is
answered from outside. -/
def copyTree (createDirAll copy : Path → Except String Unit) :
    Nat → Path → Path → Option (Outcome Path String)
  | 0, _, _ => none
  | fuel + 1, source, dest =>
      if fs.isDir source then
        match createDirAll dest, readDir listing source with
        | .error error, _ => some ([], .error error)
        | .ok _, .error error => some ([], .error error)
        | .ok _, .ok names =>
            eachOf (fun name => copyTree createDirAll copy fuel (source ++ [name]) (dest ++ [name])) names
      else
        match if dest = [] then .ok () else createDirAll dest.dropLast, fs.resolve source with
        | .error error, _ => some ([], .error error)
        | .ok _, some (.file c) => some ([c], copy dest)
        | .ok _, _ => some ([], .error (fs.reason source))

end FsGraph

end LTSearch
