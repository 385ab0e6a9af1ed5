import PegForest.Fault
import PegForest.Input.Atom
import PegForest.Input.Comparator

/-!
# Classes of atoms

A class is a set of atoms given by its members, by two bounds, or as what lies outside another
class.  Membership is decided through a comparator.
-/

set_option autoImplicit false

namespace PegForest

inductive AtomClass (α : Type) where
  | any
  | exactly (a : α)
  | within (low high : α)
  | among (set : List α)
  | except (inner : AtomClass α)
  deriving DecidableEq, Repr

namespace AtomClass

variable {α : Type}

/-- A class that lists its members has to list one. -/
def validate : AtomClass α → Except Fault Unit
  | any => .ok ()
  | exactly _ => .ok ()
  | within _ _ => .ok ()
  | among set => if set.isEmpty then .error .emptyCharset else .ok ()
  | except inner => inner.validate

/-- Whether an atom belongs to a class; the bounds of a range have to be in order. -/
def test [Atom α] (order : Comparator α) : AtomClass α → α → Except Fault Bool
  | any, _ => .ok true
  | exactly b, a => .ok (order.same a b)
  | within low high, a =>
      if order low high = .gt then .error (.emptyRange (Atom.describe low) (Atom.describe high))
      else .ok (order.between low high a)
  | among set, a => .ok (set.any fun b => order.same a b)
  | except inner, a => do
      let inside ← inner.test order a
      return !inside

end AtomClass

end PegForest
