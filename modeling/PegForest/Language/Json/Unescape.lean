import PegForest.Text.Ascii
import PegForest.Text.Utf8

/-!
# The contents of a JSON string

A quoted string is read in two steps.  `units` splits the bytes between the quotes into bytes that
stand for themselves, characters written by a short escape, and 16-bit code units written in
hexadecimal.  `write` then gives the bytes of every unit in UTF-8, where a high surrogate directly
followed by a low one is one character, and any other surrogate is a replacement character.
-/

set_option autoImplicit false

namespace PegForest.Json

open Text.Ascii

inductive StringUnit where
  | raw (b : UInt8)
  | short (c : Char)
  | code (value : Nat)
  deriving DecidableEq, Repr

/-- The number that hexadecimal digits write; a byte that is none counts as 0. -/
def hexNumber (digits : List UInt8) : Nat :=
  digits.foldl (fun value b => 16 * value + hexValue b) 0

def shortEscape (b : UInt8) : Char :=
  if b = byte 'b' then '\x08'
  else if b = byte 'f' then '\x0c'
  else if b = byte 'n' then '\n'
  else if b = byte 'r' then '\r'
  else if b = byte 't' then '\t'
  else Char.ofNat b.toNat

/-- The units of the bytes between the quotes.  A numbered unit takes four digits, or what is left;
a backslash at the very end is dropped. -/
def units : List UInt8 → List StringUnit
  | [] => []
  | [b] => if b = byte '\\' then [] else [.raw b]
  | b :: mark :: rest =>
      if b = byte '\\' then
        if mark = byte 'u' then
          match rest with
          | w :: x :: y :: z :: rest => .code (hexNumber [w, x, y, z]) :: units rest
          | digits => [.code (hexNumber digits)]
        else .short (shortEscape mark) :: units rest
      else .raw b :: units (mark :: rest)

def isHighSurrogate (value : Nat) : Bool :=
  0xD800 ≤ value && value ≤ 0xDBFF

def isLowSurrogate (value : Nat) : Bool :=
  0xDC00 ≤ value && value ≤ 0xDFFF

def codeChar (value : Nat) : Char :=
  if isHighSurrogate value || isLowSurrogate value then Text.Utf8.replacement
  else Char.ofNat value

def pairChar (high low : Nat) : Char :=
  Char.ofNat (0x10000 + (high - 0xD800) * 0x400 + (low - 0xDC00))

def write : List StringUnit → List UInt8
  | [] => []
  | .raw b :: rest => b :: write rest
  | .short c :: rest => String.utf8EncodeChar c ++ write rest
  | .code high :: .code low :: rest =>
      if isHighSurrogate high && isLowSurrogate low then
        String.utf8EncodeChar (pairChar high low) ++ write rest
      else String.utf8EncodeChar (codeChar high) ++ write (.code low :: rest)
  | .code value :: rest => String.utf8EncodeChar (codeChar value) ++ write rest

/-- The bytes between the quotes; without both quotes, all bytes. -/
def unquote (quoted : List UInt8) : List UInt8 :=
  match quoted with
  | first :: rest =>
      if first = byte '"' ∧ rest.getLast? = some (byte '"') then rest.dropLast else quoted
  | [] => []

/-- The contents of a quoted string. -/
def unescape (quoted : List UInt8) : String :=
  Text.Utf8.decodeLossy (write (units (unquote quoted)))

end PegForest.Json
