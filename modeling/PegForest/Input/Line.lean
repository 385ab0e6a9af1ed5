/-!
# Lines and columns

An offset into bytes has a line and a column, both counted from one.
-/

set_option autoImplicit false

namespace PegForest

def newline : UInt8 := 10

/-- The line and the column that follow the given bytes, both counted from one.  The line counts
the newlines; the column is the distance from the last of them, or from the place before the first
byte. -/
def lineColumnAfter (before : List UInt8) : Nat × Nat :=
  (before.count newline + 1, (before.reverse.takeWhile (· != newline)).length + 1)

/-- The line and the column of an offset; an offset beyond the end is taken as the end. -/
def lineColumn (source : Array UInt8) (offset : Nat) : Nat × Nat :=
  lineColumnAfter (source.toList.take offset)

end PegForest
