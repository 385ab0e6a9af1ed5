import PegForest.Text.Hidden

/-!
# Literals that show one character or byte

`charLiteral` quotes a character so that any character can be told from the text: six have a
short escape, the characters of `hiddenRanges` are written by number, and every other one stands
for itself.  `byteLiteral` does the same for a byte in printable text alone.
-/

set_option autoImplicit false

namespace PegForest.Text

def hexDigits (n : Nat) : String :=
  String.ofList (Nat.toDigits 16 n)

def hexByte (b : UInt8) : String :=
  String.ofList [Nat.digitChar (b.toNat / 16), Nat.digitChar (b.toNat % 16)]

/-- A quoted character; a double quote needs no escape between single ones. -/
def charLiteral (c : Char) : String :=
  let shown :=
    if c = '\x00' then "\\0"
    else if c = '\t' then "\\t"
    else if c = '\r' then "\\r"
    else if c = '\n' then "\\n"
    else if c = '\x27' then "\\'"
    else if c = '\\' then "\\\\"
    else if isHidden c then "\\u\x7b" ++ hexDigits c.toNat ++ "\x7d"
    else String.ofList [c]
  "'" ++ shown ++ "'"

def byteLiteral (b : UInt8) : String :=
  let shown :=
    if b = 9 then "\\t"
    else if b = 10 then "\\n"
    else if b = 13 then "\\r"
    else if b = 34 then "\\\""
    else if b = 39 then "\\'"
    else if b = 92 then "\\\\"
    else if 0x20 ≤ b ∧ b < 0x7f then String.ofList [Char.ofNat b.toNat]
    else "\\x" ++ hexByte b
  "b'" ++ shown ++ "'"

end PegForest.Text
