import PegForest.Matcher.Eval
import PegForest.Text.Ascii

/-!
# Tokens of the calculator

A source is a run of tokens with blanks between them.  A number or a name is as long as possible,
and a doubled sign is one token.
-/

set_option autoImplicit false

namespace PegForest.Calculator

open Text.Ascii

/-- Kinds of tokens, in the order in which they compare. -/
inductive TokenKind where
  | number
  | ident
  | plus
  | minus
  | star
  | slash
  | leftParen
  | rightParen
  | increment
  | decrement
  deriving DecidableEq, Repr, Ord

namespace TokenKind

def name : TokenKind → String
  | number => "Number"
  | ident => "Ident"
  | plus => "Plus"
  | minus => "Minus"
  | star => "Star"
  | slash => "Slash"
  | leftParen => "LParen"
  | rightParen => "RParen"
  | increment => "Increment"
  | decrement => "Decrement"

end TokenKind

instance : Atom TokenKind := ⟨TokenKind.name⟩

structure Token where
  kind : TokenKind
  start : Nat
  stop : Nat
  deriving DecidableEq, Repr

section Matchers

variable {ρ : Type}

def blanks : Matcher UInt8 TokenKind ρ :=
  .star (.charset (bytes [' ', '\t', '\r', '\n']))

def digit : Matcher UInt8 TokenKind ρ :=
  .range (byte '0') (byte '9')

def identStart : Matcher UInt8 TokenKind ρ :=
  .choice [.range (byte 'a') (byte 'z'), .range (byte 'A') (byte 'Z'), .atom (byte '_')]

def identRest : Matcher UInt8 TokenKind ρ :=
  .choice [.range (byte 'a') (byte 'z'), .range (byte 'A') (byte 'Z'), digit,
    .atom (byte '_')]

/-- A token; the doubled signs come before the single ones. -/
def token : Matcher UInt8 TokenKind ρ :=
  .choice [
    .capture .number (.plus digit),
    .capture .ident (.seq [identStart, .star identRest]),
    .capture .increment (.literal (bytes ['+', '+'])),
    .capture .decrement (.literal (bytes ['-', '-'])),
    .capture .plus (.atom (byte '+')),
    .capture .minus (.atom (byte '-')),
    .capture .star (.atom (byte '*')),
    .capture .slash (.atom (byte '/')),
    .capture .leftParen (.atom (byte '(')),
    .capture .rightParen (.atom (byte ')'))]

def tokenRun : Matcher UInt8 TokenKind ρ :=
  .seq [blanks, .star (.seq [token, blanks]), .endOfInput]

end Matchers

def tokenGrammar : Grammar UInt8 TokenKind Empty :=
  fun rule => nomatch rule

end PegForest.Calculator
