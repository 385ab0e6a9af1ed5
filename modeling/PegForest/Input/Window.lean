/-!
# Windows

A match reads a window of an input: the atoms before a limit.  The window stays the same while the
cursor moves.
-/

set_option autoImplicit false

namespace PegForest

/-- The part of an input that a match may read: the atoms before `limit`. -/
structure Window (α : Type) where
  source : Array α
  limit : Nat

namespace Window

variable {α : Type}

def peek? (window : Window α) (cursor : Nat) : Option α :=
  if cursor < window.limit then window.source[cursor]? else none

def left (window : Window α) (cursor : Nat) : Nat :=
  window.limit - cursor

end Window

end PegForest
