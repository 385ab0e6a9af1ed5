import PegForest.Number.Binary64
import PegForest.Text.Ascii

/-!
# Reading decimal text

A numeral is an optional sign and then either a word for an infinity or for no number, in any
case, or digits with an optional point among or around them and an optional exponent.  There is a
digit before or after the point, and an exponent has one.  Anything else is no numeral.

The value is `significand * 10 ^ exponent` in exact arithmetic, rounded once.  A value whose first
digit stands far outside the range of floating-point exponents is decided by that place alone, so
that an exponent of any length costs nothing.
-/

set_option autoImplicit false

namespace PegForest.Decimal

open Text.Ascii

def splitSign : List UInt8 → Bool × List UInt8
  | 0x2D :: rest => (true, rest)
  | 0x2B :: rest => (false, rest)
  | text => (false, text)

def splitDigits (text : List UInt8) : List UInt8 × List UInt8 :=
  (text.takeWhile isDigit, text.dropWhile isDigit)

def splitFraction : List UInt8 → List UInt8 × List UInt8
  | 0x2E :: rest => splitDigits rest
  | text => ([], text)

/-- The exponent that makes up the whole of a text; the empty text writes the exponent 0. -/
def exponent? : List UInt8 → Option Int
  | [] => some 0
  | mark :: rest =>
      if mark = 0x65 ∨ mark = 0x45 then
        let (negative, digits) := splitSign rest
        if digits.isEmpty || !digits.all isDigit then none
        else if negative then some (-(ofDigits digits : Int))
        else some (ofDigits digits : Int)
      else none

/-- The floating-point number nearest to `significand * 10 ^ exponent`. -/
def round (negative : Bool) (significand : Nat) (exponent : Int) : Binary64 :=
  let place := ((Nat.toDigits 10 significand).length : Int) + exponent
  if significand = 0 then .zero negative
  else if 310 < place then .infinity negative
  else if place < -330 then .zero negative
  else if 0 ≤ exponent then .ofRatio negative (significand * Nat.pow 10 exponent.toNat) 1
  else .ofRatio negative significand (Nat.pow 10 (-exponent).toNat)

def word? (negative : Bool) (text : List UInt8) : Option Binary64 :=
  let word := text.map lower
  if word = bytes ['i', 'n', 'f'] then some (.infinity negative)
  else if word = bytes ['i', 'n', 'f', 'i', 'n', 'i', 't', 'y'] then some (.infinity negative)
  else if word = bytes ['n', 'a', 'n'] then some .nan
  else none

def unsigned? (negative : Bool) (text : List UInt8) : Option Binary64 :=
  let (whole, rest) := splitDigits text
  let (fraction, rest) := splitFraction rest
  if whole.isEmpty && fraction.isEmpty then none
  else
    (exponent? rest).map fun exponent =>
      round negative (ofDigits (whole ++ fraction)) (exponent - (fraction.length : Int))

/-- The number that a text writes, if it is a numeral. -/
def read? (text : List UInt8) : Option Binary64 :=
  let (negative, rest) := splitSign text
  (word? negative rest).or (unsigned? negative rest)

end PegForest.Decimal
