import PegForest.Text.Ascii

/-!
# How atoms are compared

A matcher looks at atoms only through a comparator, which belongs to a run and not to the atom
type, so that one grammar can be run with and without regard to letter case.  A program may bring
its own comparator, such as `reversed` and `modulo`.
-/

set_option autoImplicit false

namespace PegForest

abbrev Comparator (α : Type) := α → α → Ordering

namespace Comparator

variable {α : Type}

def natural [Ord α] : Comparator α :=
  compare

def byKey {κ : Type} [Ord κ] (key : α → κ) : Comparator α :=
  fun a b => compare (key a) (key b)

def reversed [Ord α] : Comparator α :=
  fun a b => compare b a

/-- Integers by their remainder, which is never negative. -/
def modulo (modulus : Int) : Comparator Int :=
  byKey fun a => a % modulus

def caselessByte : Comparator UInt8 :=
  byKey Text.Ascii.lower

def caselessChar : Comparator Char :=
  byKey Char.toLower

def same (order : Comparator α) (a b : α) : Bool :=
  order a b == .eq

def between (order : Comparator α) (low high a : α) : Bool :=
  order low a != .gt && order a high != .gt

end Comparator

end PegForest
