import PegForest.Language.Calculator.Token

/-!
# Expressions over tokens

Sums of products of signed operands, with `++` and `--` after an operand and parentheses.  Binary
operators associate to the left: an operator and its right operand make a bookmark, which then
adopts what stands before it.
-/

set_option autoImplicit false

namespace PegForest.Calculator

inductive Tag where
  | number
  | name
  | negate
  | add
  | subtract
  | multiply
  | divide
  | increment
  | decrement
  deriving DecidableEq, Repr

/-- The rules that call themselves: an expression through parentheses, an operand through its
sign. -/
inductive Rule where
  | expression
  | signed
  deriving DecidableEq, Repr

section Matchers

variable {ρ : Type} (again : Rule → ρ)

/-- Operands with operators between them, each operator together with its right operand. -/
def chain (operand : Matcher TokenKind Tag ρ) (operators : List (Matcher TokenKind Tag ρ)) :
    Matcher TokenKind Tag ρ :=
  .promote (.seq [operand, .star (.choice operators)])

def primary : Matcher TokenKind Tag ρ :=
  .choice [.capture .number (.atom .number), .capture .name (.atom .ident),
    .seq [.atom .leftParen, .rule (again .expression), .atom .rightParen]]

def stepped : Matcher TokenKind Tag ρ :=
  chain (primary again)
    [.captureEnd .increment (.atom .increment), .captureEnd .decrement (.atom .decrement)]

def signed : Matcher TokenKind Tag ρ :=
  .choice [.capture .negate (.seq [.atom .minus, .rule (again .signed)]), stepped again]

def product : Matcher TokenKind Tag ρ :=
  chain (signed again)
    [.captureEnd .multiply (.seq [.atom .star, signed again]),
      .captureEnd .divide (.seq [.atom .slash, signed again])]

def expression : Matcher TokenKind Tag ρ :=
  chain (product again)
    [.captureEnd .add (.seq [.atom .plus, product again]),
      .captureEnd .subtract (.seq [.atom .minus, product again])]

def ruleBody : Rule → Matcher TokenKind Tag ρ
  | .expression => expression again
  | .signed => signed again

end Matchers

def grammar : Grammar TokenKind Tag Rule :=
  ruleBody id

end PegForest.Calculator
