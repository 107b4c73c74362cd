/-
# LTSearch.Foundation.Descent -- going down into whatever is below a place

A place is a leaf, which ends at once, or has places below it that are visited one after the other.
Nothing remembers where it has been, so a descent may never end: it is run with fuel, and ends if
some fuel is enough.
-/
import Mathlib

namespace LTSearch.Foundation

variable {P F ε : Type}

/-- What has been read, and how it ended. -/
abbrev Outcome (F ε : Type) := List F × Except ε Unit

namespace Outcome

/-- What comes after, if nothing has failed. -/
def andThen (o : Outcome F ε) (next : Option (Outcome F ε)) : Option (Outcome F ε) :=
  match o.2 with
  | .error _ => some o
  | .ok _ => next.map fun o' => (o.1 ++ o'.1, o'.2)

end Outcome

/-- What is seen at a place. -/
inductive Sight (P F ε : Type) where
  | leaf (outcome : Outcome F ε)
  | branch (below : List P)

/-- One place after the other. -/
def eachOf (one : P → Option (Outcome F ε)) : List P → Option (Outcome F ε)
  | [] => some ([], .ok ())
  | p :: rest => (one p).bind fun o => o.andThen (eachOf one rest)

variable {look : P → Sight P F ε} {one one' : P → Option (Outcome F ε)}

end LTSearch.Foundation
