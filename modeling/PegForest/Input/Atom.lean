import PegForest.Text.Literal

/-!
# Atoms

An input is a run of atoms: bytes, characters, integers, or the tokens of an earlier stage.  All
that a message needs of an atom is a way to show it.
-/

set_option autoImplicit false

namespace PegForest

/-- Types whose values can be named in a message. -/
class Atom (α : Type) where
  describe : α → String

instance : Atom UInt8 := ⟨fun b => toString b.toNat⟩

instance : Atom Int := ⟨fun n => toString n⟩

instance : Atom Char := ⟨Text.charLiteral⟩

end PegForest
