import PegForest.Input.Range

/-!
# Backreferences

A backreference names the range of the input that a part of a grammar consumed, so that a later
part can ask for the same atoms again.  The ranges are kept on a stack: a later one hides an
earlier one of the same name, and going back to a mark drops every range stored after it.
-/

set_option autoImplicit false

namespace PegForest

structure Backref where
  name : String
  range : Range
  deriving DecidableEq, Repr

/-- The stored ranges, the most recent one last. -/
structure Backrefs where
  entries : Array Backref
  deriving DecidableEq, Repr

namespace Backrefs

def empty : Backrefs := ⟨#[]⟩

def size (refs : Backrefs) : Nat :=
  refs.entries.size

def isEmpty (refs : Backrefs) : Bool :=
  refs.entries.isEmpty

def store (refs : Backrefs) (name : String) (range : Range) : Backrefs :=
  ⟨refs.entries.push ⟨name, range⟩⟩

def get? (refs : Backrefs) (name : String) : Option Range :=
  (refs.entries.toList.reverse.find? fun entry => entry.name == name).map Backref.range

def mark (refs : Backrefs) : Nat :=
  refs.entries.size

/-- Drop what was stored after a mark; a mark beyond the end changes nothing. -/
def restore (refs : Backrefs) (mark : Nat) : Backrefs :=
  ⟨refs.entries.shrink mark⟩

end Backrefs

end PegForest
