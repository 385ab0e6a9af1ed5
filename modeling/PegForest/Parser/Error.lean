import PegForest.Input.Range

/-!
# Errors of a parse

A parse is refused either because the grammar failed, with the place and the rule it was for, or
because input was left over.
-/

set_option autoImplicit false

namespace PegForest

inductive ParseError where
  /-- The grammar failed over a range: the offending atom, or nothing at the end of the input. -/
  | unexpected (range : Range) (nonterminal detail : String)
  | trailing (range : Range)
  deriving DecidableEq, Repr

namespace ParseError

def range : ParseError → Range
  | unexpected range _ _ => range
  | trailing range => range

def offset (error : ParseError) : Nat :=
  error.range.start

private def rangeText (range : Range) : String :=
  toString range.start ++ ".." ++ toString range.stop

def message : ParseError → String
  | unexpected range nonterminal detail =>
      "syntax error in " ++ nonterminal ++ " at " ++ rangeText range ++ ": " ++ detail
  | trailing range => "unexpected trailing input at " ++ rangeText range

end ParseError

end PegForest
