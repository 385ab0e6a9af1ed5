import PegForest.Language.Calculator.Basic

/-!
# Expressions as s-expressions

An operator is written before its operands, in parentheses and after a blank each, such as
`(+ 1 (* 2 3))`; a number or a name is written as in the source.
-/

set_option autoImplicit false

namespace PegForest.Calculator

def Tag.operator? : Tag → Option String
  | .number | .name => none
  | .negate => some "neg"
  | .add => some "+"
  | .subtract => some "-"
  | .multiply => some "*"
  | .divide => some "/"
  | .increment => some "++"
  | .decrement => some "--"

/-- The s-expression of a node whose descendants are at most `depth` deep. -/
def writeNode (forest : Forest Tag) (tokens : Array Token) (source : Array UInt8) :
    (depth : Nat) → NodeId → Except Fault (List Char)
  | 0, id => .error (.staleId id)
  | depth + 1, id => do
      let node ← forest.node id
      match node.tag.bind Tag.operator? with
      | none => return Text.Utf8.decodeLossyFrom none (tokenText tokens source node)
      | some operator =>
          let children ← forest.children id
          let operands ← children.mapM (writeNode forest tokens source depth)
          return '(' :: operator.toList ++ (operands.map (' ' :: ·)).flatten ++ [')']

def render (state : Calculator) (source : String) :
    Except Fault (Except ParseError String × Calculator) := do
  let (answer, state) ← state.parse source
  match answer with
  | .error error => return (.error error, state)
  | .ok () =>
      let forest := state.parser.forestD
      match forest.head with
      | none => return (.ok "", state)
      | some root =>
          let text ← writeNode forest state.tokens (Text.Utf8.encode source) (forest.size + 1)
            root
          return (.ok (String.ofList text), state)

end PegForest.Calculator
