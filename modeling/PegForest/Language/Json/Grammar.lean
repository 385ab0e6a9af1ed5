import PegForest.Matcher.Eval
import PegForest.Text.Ascii

/-!
# The grammar of JSON

Every value and every member of an object gets a node.  Blanks belong to the value or the member
next to them and are covered by no node of a string or a number.
-/

set_option autoImplicit false

namespace PegForest.Json

open Text.Ascii

inductive Tag where
  | object
  | member
  | array
  | string
  | number
  | true
  | false
  | null
  deriving DecidableEq, Repr

inductive Rule where
  | value
  deriving DecidableEq, Repr

section Matchers

variable {ρ : Type}

def blanks : Matcher UInt8 Tag ρ :=
  .star (.charset (bytes [' ', '\t', '\r', '\n']))

def digit : Matcher UInt8 Tag ρ :=
  .range (byte '0') (byte '9')

def hexDigit : Matcher UInt8 Tag ρ :=
  .choice [.range (byte '0') (byte '9'), .range (byte 'a') (byte 'f'),
    .range (byte 'A') (byte 'F')]

def escape : Matcher UInt8 Tag ρ :=
  .seq [.atom (byte '\\'),
    .choice [.charset (bytes ['"', '\\', '/', 'b', 'f', 'n', 'r', 't']),
      .seq [.atom (byte 'u'), .times 4 hexDigit]]]

def unescaped : Matcher UInt8 Tag ρ :=
  .seq [.notAhead (.charset (bytes ['"', '\\'])), .one (.except (.within 0x00 0x1F))]

def string : Matcher UInt8 Tag ρ :=
  .capture .string
    (.seq [.atom (byte '"'), .star (.choice [escape, unescaped]), .atom (byte '"')])

def integer : Matcher UInt8 Tag ρ :=
  .choice [.atom (byte '0'), .seq [.range (byte '1') (byte '9'), .star digit]]

def fraction : Matcher UInt8 Tag ρ :=
  .opt (.seq [.atom (byte '.'), .plus digit])

def exponent : Matcher UInt8 Tag ρ :=
  .opt (.seq [.charset (bytes ['e', 'E']), .opt (.charset (bytes ['+', '-'])), .plus digit])

def number : Matcher UInt8 Tag ρ :=
  .capture .number (.seq [.opt (.atom (byte '-')), integer, fraction, exponent])

/-- A key and a value; `again` names the value rule. -/
def member (again : ρ) : Matcher UInt8 Tag ρ :=
  .capture .member (.seq [blanks, string, blanks, .atom (byte ':'), .rule again])

def separated (part : Matcher UInt8 Tag ρ) : Matcher UInt8 Tag ρ :=
  .seq [part, .star (.seq [.atom (byte ','), part])]

def object (again : ρ) : Matcher UInt8 Tag ρ :=
  .capture .object
    (.seq [.atom (byte '\x7b'), .choice [separated (member again), blanks],
      .atom (byte '\x7d')])

def array (again : ρ) : Matcher UInt8 Tag ρ :=
  .capture .array
    (.seq [.atom (byte '['), .choice [separated (.rule again), blanks], .atom (byte ']')])

def value (again : ρ) : Matcher UInt8 Tag ρ :=
  .seq [blanks,
    .choice [object again, array again, string, number,
      .capture .true (.literal (bytes ['t', 'r', 'u', 'e'])),
      .capture .false (.literal (bytes ['f', 'a', 'l', 's', 'e'])),
      .capture .null (.literal (bytes ['n', 'u', 'l', 'l']))],
    blanks]

end Matchers

def grammar : Grammar UInt8 Tag Rule
  | .value => value .value

end PegForest.Json
