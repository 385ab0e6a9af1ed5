import PegForest.Language.Calculator.Basic

/-!
# Values of expressions

Values are integers of 64 bits.  Whatever does not fit on the way, divides by zero, or names no
variable has no value.
-/

set_option autoImplicit false

namespace PegForest.Calculator

def leastInteger : Int := -9223372036854775808

def greatestInteger : Int := 9223372036854775807

def checked (n : Int) : Option Int :=
  if leastInteger ≤ n ∧ n ≤ greatestInteger then some n else none

/-- The number that digits write, if it has 64 bits. -/
def literal? (digits : List UInt8) : Option Int :=
  if digits.isEmpty || !digits.all Text.Ascii.isDigit then none
  else checked (Text.Ascii.ofDigits digits)

def binding? (bindings : List (String × Int)) (name : String) : Option Int :=
  (bindings.find? fun binding => binding.1 == name).map Prod.snd

/-- The quotient rounded toward zero, unless the divisor is zero. -/
def quotient? (a b : Int) : Option Int :=
  if b = 0 then none else checked (a.tdiv b)

def operate : Tag → List (Option Int) → Option Int
  | .negate, a :: _ => a.bind fun a => checked (-a)
  | .increment, a :: _ => a.bind fun a => checked (a + 1)
  | .decrement, a :: _ => a.bind fun a => checked (a - 1)
  | .add, a :: b :: _ => a.bind fun a => b.bind fun b => checked (a + b)
  | .subtract, a :: b :: _ => a.bind fun a => b.bind fun b => checked (a - b)
  | .multiply, a :: b :: _ => a.bind fun a => b.bind fun b => checked (a * b)
  | .divide, a :: b :: _ => a.bind fun a => b.bind fun b => quotient? a b
  | _, _ => none

/-- The value of a node whose descendants are at most `depth` deep. -/
def evalNode (forest : Forest Tag) (tokens : Array Token) (source : Array UInt8)
    (bindings : List (String × Int)) : (depth : Nat) → NodeId → Except Fault (Option Int)
  | 0, id => .error (.staleId id)
  | depth + 1, id => do
      let node ← forest.node id
      match node.tag with
      | none => return none
      | some .number => return literal? (tokenText tokens source node)
      | some .name =>
          return binding? bindings (Text.Utf8.decodeLossy (tokenText tokens source node))
      | some operator =>
          let children ← forest.children id
          let operands ← children.mapM (evalNode forest tokens source bindings depth)
          return operate operator operands

def evaluate (state : Calculator) (source : String) (bindings : List (String × Int)) :
    Except Fault (Except ParseError (Option Int) × Calculator) := do
  let (answer, state) ← state.parse source
  match answer with
  | .error error => return (.error error, state)
  | .ok () =>
      let forest := state.parser.forestD
      match forest.head with
      | none => return (.ok none, state)
      | some root =>
          let value ← evalNode forest state.tokens (Text.Utf8.encode source) bindings
            (forest.size + 1) root
          return (.ok value, state)

end PegForest.Calculator
