import PegForest.Parser.Basic
import PegForest.Text.Utf8

/-!
# Long-bracket strings

A long string is `[[...]]`, or with any number of `=` between the brackets, `[==[...]==]`; it ends
at the first closing bracket with as many `=` as the opening one.  The level travels from one
bracket to the other as a backreference.  A newline right after the opening bracket is not part of
the contents.
-/

set_option autoImplicit false

namespace PegForest.LongString

open Text.Ascii

section Matchers

variable {τ ρ : Type}

def level : String := "level"

def closing : Matcher UInt8 τ ρ :=
  .seq [.atom (byte ']'), .backref level, .atom (byte ']')]

/-- A bracketed string up to the first closing bracket of its level. -/
def longString : Matcher UInt8 τ ρ :=
  .seq [.atom (byte '['), .store level (.star (.atom (byte '='))), .atom (byte '['),
    .upTo closing, closing]

/-- One or more long strings separated by commas; a comma may follow the last. -/
def longStrings : Matcher UInt8 τ ρ :=
  .seq [longString, .star (.seq [.atom (byte ','), longString]), .opt (.atom (byte ','))]

def wordOrLongString : Matcher UInt8 τ ρ :=
  .choice [longString, .plus (.range (byte 'a') (byte 'z'))]

end Matchers

def grammar : Grammar UInt8 Empty Empty :=
  fun rule => nomatch rule

def parser : Parser :=
  { nonterminal := "<long-string>" }

/-- The contents without one newline at their start, with or without a carriage return. -/
def dropNewline : List Char → List Char
  | '\r' :: '\n' :: rest => rest
  | '\n' :: rest => rest
  | contents => contents

def body (input : List UInt8) : List UInt8 :=
  let bracket := ((input.drop 1).takeWhile (· == byte '=')).length + 2
  (input.take (input.length - bracket)).drop bracket

def parse (text : String) : Except Fault (Except ParseError String) := do
  let input := Text.Utf8.encode text
  let (answer, _) ← parser.runOn Text.byteLiteral
    (grammar.runOn .natural 0 longString) .text input
  return answer.map fun _ =>
    String.ofList (dropNewline ((Text.Utf8.decodeFrom? none (body input.toList)).getD []))

end PegForest.LongString
