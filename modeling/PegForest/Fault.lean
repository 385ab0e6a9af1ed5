/-!
# Faults

Matching reports failure as an ordinary value.  A fault is different: the operation was used
against its contract, and no value answers it.  Each constructor is one broken contract, and
`Fault.message` is the only place where its wording stands.

`exhausted` is not a misuse.  A run is given a bound on nested rule calls, and a run that meets
the bound says nothing about the match; every other outcome is independent of the bound.
-/

set_option autoImplicit false

namespace PegForest

inductive Fault where
  | zeroSlabCapacity
  | staleId (id : Nat)
  | freeOutOfOrder (id : Nat) (last : Option Nat)
  | notTopLevel (id : Nat)
  | noPredecessor (id : Nat)
  /-- The links of siblings lead round, and a walk along them does not end. -/
  | endlessLinks (id : Nat)
  | spanBounds (cursor limit size : Nat)
  | failureOutside (offset size : Nat)
  | advancePastLimit (count limit cursor : Nat)
  | advanceFailed
  | sliceOutside
  | emptyCharset
  | emptyLiteral
  /-- The lower bound of an atom range, shown as text, lies above the upper one. -/
  | emptyRange (low high : String)
  | backrefMissing (name : String)
  | backrefNoStore (name : String)
  /-- The bound on nested rule calls was met. -/
  | exhausted
  deriving DecidableEq, Repr

namespace Fault

private def idText (id : Nat) : String :=
  s!"ArenaId({id})"

private def lastText : Option Nat → String
  | none => "None"
  | some id => "Some(" ++ idText id ++ ")"

/-- The text that goes with a fault; a range outside its input has none of its own, and a walk that
goes on forever says nothing. -/
def message : Fault → Option String
  | zeroSlabCapacity => some "arena slabs need a nonzero capacity"
  | staleId id => some ("stale arena id " ++ idText id)
  | freeOutOfOrder id last =>
      some ("arena free out of LIFO order: freeing " ++ idText id ++ ", most recent is " ++
        lastText last)
  | notTopLevel id =>
      some ("rewind target Some(NodeId(" ++ idText id ++ ")) is no longer a top-level node")
  | noPredecessor _ =>
      some "internal error: entered unreachable code: a node after the watermark has a predecessor"
  | endlessLinks _ => none
  | spanBounds cursor limit size =>
      some s!"span bounds {cursor}..{limit} outside input of length {size}"
  | failureOutside offset size =>
      some s!"failure offset {offset} outside input of length {size}"
  | advancePastLimit count limit cursor =>
      some s!"advance by {count} past limit {limit} from {cursor}"
  | advanceFailed => some "advance on a failed span"
  | sliceOutside => none
  | emptyCharset => some "charset needs at least one atom"
  | emptyLiteral => some "literal needs at least one atom"
  | emptyRange low high => some s!"empty atom range {low}..={high}"
  | backrefMissing name => some s!"backreference `{name}` matched before it was stored"
  | backrefNoStore name =>
      some s!"backreference `{name}` stored on a context without a backreference store"
  | exhausted => some "rule calls nested beyond the bound"

end Fault

end PegForest
