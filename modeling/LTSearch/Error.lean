/-
# LTSearch.Error -- the error types and the texts they print

The four error enums of the crate, each with its `Display` text exactly as the derive attributes
spell it.  The texts are data of the model: the build worker decides whether to retry by searching
one of them.
-/
import Mathlib

namespace LTSearch

inductive ValidationError where
  | required (field : String)
  | lengthOutOfRange (field : String) (min max : Nat)
  | rangeOutOfRange (field : String) (min max : Nat)
  | mustBePositive (field : String)
  | invalidValue (field : String)
  | mismatch (field expected : String)
  | tooLarge (field : String) (maxBytes : Nat)
  deriving DecidableEq, Repr

namespace ValidationError

/-- The `#[error(..)]` texts. -/
def display : ValidationError → String
  | required field => s!"{field} is required"
  | lengthOutOfRange field min max => s!"{field} must be between {min} and {max}"
  | rangeOutOfRange field min max => s!"{field} must be between {min} and {max}"
  | mustBePositive field => s!"{field} must be positive"
  | invalidValue field => s!"{field} has an invalid value"
  | mismatch field expected => s!"{field} must match {expected}"
  | tooLarge field maxBytes => s!"{field} exceeds the maximum size of {maxBytes} bytes"

/-- The field an error is about. -/
def field : ValidationError → String
  | required f | lengthOutOfRange f _ _ | rangeOutOfRange f _ _ | mustBePositive f
  | invalidValue f | mismatch f _ | tooLarge f _ => f

end ValidationError

inductive IndexError where
  | validation (source : ValidationError)
  | operation (message : String)
  deriving DecidableEq, Repr

def IndexError.display : IndexError → String
  | validation source => source.display
  | operation message => s!"index operation failed: {message}"

inductive PublishError where
  | validation (source : ValidationError)
  | operation (message : String)
  deriving DecidableEq, Repr

def PublishError.display : PublishError → String
  | validation source => source.display
  | operation message => s!"publish operation failed: {message}"

inductive IngestError where
  | validation (source : ValidationError)
  | operation (message : String)
  deriving DecidableEq, Repr

def IngestError.display : IngestError → String
  | validation source => source.display
  | operation message => s!"ingest operation failed: {message}"

/-- `?` on a validation result inside a function that fails with the wider error. -/
instance : MonadLift (Except ValidationError) (Except IngestError) where
  monadLift x := x.mapError .validation

end LTSearch
