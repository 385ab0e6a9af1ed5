import PegForest.Forest.Walk
import PegForest.Parser.Basic
import PegForest.Text.Utf8

/-!
# Nested lists of words

A list is a parenthesis around words and lists, separated by commas, such as `(ab,(c,d),e)`; a
comma may also stand before the closing parenthesis.  A word is a run of lower-case letters.
`serialize` writes a forest back without such trailing commas.
-/

set_option autoImplicit false

namespace PegForest.NestedList

open Text.Ascii

inductive Tag where
  | word
  | list
  deriving DecidableEq, Repr

inductive Rule where
  | list
  deriving DecidableEq, Repr

section Matchers

variable {ρ : Type}

def word : Matcher UInt8 Tag ρ :=
  .capture .word (.plus (.range (byte 'a') (byte 'z')))

/-- A word or a list; `again` names the list rule. -/
def element (again : ρ) : Matcher UInt8 Tag ρ :=
  .choice [word, .rule again]

def list (again : ρ) : Matcher UInt8 Tag ρ :=
  .capture .list
    (.list (.atom (byte '(')) (element again) (.atom (byte ',')) (.atom (byte ')')))

end Matchers

def grammar : Grammar UInt8 Tag Rule
  | .list => list .list

def parser : Parser :=
  { nonterminal := "<list>" }

def parse (ctx : Context Tag) (text : String) :
    Except Fault (Except ParseError Nat × Context Tag) :=
  let input := Text.Utf8.encode text
  parser.runOn Text.byteLiteral
    (grammar.runOn .natural (input.size + 1) (.rule .list)) ctx input

def joinCommas : List (List Char) → List Char
  | [] => []
  | [piece] => piece
  | piece :: rest => piece ++ ',' :: joinCommas rest

/-- The text of a node, whose descendants are at most `depth` deep. -/
def write (forest : Forest Tag) (source : Array UInt8) :
    (depth : Nat) → NodeId → Except Fault (List Char)
  | 0, id => .error (.staleId id)
  | depth + 1, id => do
      let node ← forest.node id
      match node.tag with
      | some .word =>
          let covered ← forest.text id source
          return Text.Utf8.decodeLossyFrom none covered.toList
      | _ =>
          let children ← forest.children id
          let pieces ← children.mapM (write forest source depth)
          return '(' :: joinCommas pieces ++ [')']

/-- The text of a forest over its source, without trailing commas. -/
def serialize (forest : Forest Tag) (source : Array UInt8) : Except Fault String := do
  let roots ← forest.roots
  let pieces ← roots.mapM (write forest source (forest.size + 1))
  return String.ofList pieces.flatten

end PegForest.NestedList
