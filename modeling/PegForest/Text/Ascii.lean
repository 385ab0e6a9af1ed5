/-!
# ASCII bytes

Letter case, digits and hexadecimal digits of single bytes.  Bytes outside ASCII have no case and
are no digits.
-/

set_option autoImplicit false

namespace PegForest.Text.Ascii

def lower (b : UInt8) : UInt8 :=
  if 0x41 ≤ b ∧ b ≤ 0x5A then b + 0x20 else b

def isDigit (b : UInt8) : Bool :=
  0x30 ≤ b && b ≤ 0x39

def digitValue (b : UInt8) : Nat :=
  b.toNat - 0x30

def ofDigits (digits : List UInt8) : Nat :=
  digits.foldl (fun value b => 10 * value + digitValue b) 0

/-- The value of a hexadecimal digit of either case, and 0 for any other byte. -/
def hexValue (b : UInt8) : Nat :=
  if isDigit b then digitValue b
  else if 0x61 ≤ b ∧ b ≤ 0x66 then b.toNat - 0x57
  else if 0x41 ≤ b ∧ b ≤ 0x46 then b.toNat - 0x37
  else 0

def byte (c : Char) : UInt8 :=
  UInt8.ofNat c.toNat

def bytes (cs : List Char) : List UInt8 :=
  cs.map byte

end PegForest.Text.Ascii
