/-
# LTSearch.Storage.ManifestStore -- the active manifest and how reading it fails
-/
import LTSearch.Models.Index
import LTSearch.Storage.Head

namespace LTSearch

structure ActiveManifest where
  head : ManifestHead
  manifest : IndexManifest
  deriving DecidableEq, Repr

inductive ManifestStoreError where
  | missingHead (path : String)
  | missingManifest (path : String)
  | invalidHead (message : String)
  | invalidManifest (path message : String)
  | io (path source : String)
  deriving DecidableEq, Repr

/-- The `#[error(..)]` texts. -/
def ManifestStoreError.display : ManifestStoreError → String
  | missingHead path => s!"manifest head is missing at {path}"
  | missingManifest path => s!"active manifest is missing at {path}"
  | invalidHead message => s!"manifest head is invalid: {message}"
  | invalidManifest path message => s!"manifest file at {path} is invalid: {message}"
  | io path source => s!"failed to read {path}: {source}"

end LTSearch
