import PegForest.Fault

/-!
# Ranges of an input

Offsets count the atoms of a whole input from its start.  A range is cut out of an input only if it
lies inside it.
-/

set_option autoImplicit false

namespace PegForest

/-- The offsets of the first atom of a range and of the one after its last. -/
structure Range where
  start : Nat
  stop : Nat
  deriving DecidableEq, Repr

def slice {α : Type} (source : Array α) (start stop : Nat) : Except Fault (Array α) :=
  if start ≤ stop ∧ stop ≤ source.size then .ok (source.extract start stop)
  else .error .sliceOutside

end PegForest
