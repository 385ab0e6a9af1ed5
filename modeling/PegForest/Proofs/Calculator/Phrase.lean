import PegForest.Language.Calculator.Expression
import PegForest.Proofs.Forest.Layout

/-!
# Phrases of the calculator

A phrase is a derivation in the grammar of expressions:

    sum     := product (('+' | '-') product)*
    product := signed (('*' | '/') signed)*
    signed  := '-' signed | stepped
    stepped := primary ('++' | '--')*
    primary := number | name | '(' sum ')'

Repetitions associate to the left: a sum is a product, or a sum followed by a sign and a product.
So a phrase has the tokens that it derives, and it is a tree of operators already: its nodes are the
operators, numbers and names, each over the tokens of the phrase that it heads.  Parentheses leave
no node.
-/

set_option autoImplicit false

namespace PegForest.Calculator

inductive Level where
  | sum
  | product
  | signed
  | stepped
  | primary

inductive Phrase : Level → Type where
  | number : Phrase .primary
  | name : Phrase .primary
  | parens (inner : Phrase .sum) : Phrase .primary
  | plain (operand : Phrase .primary) : Phrase .stepped
  | increment (operand : Phrase .stepped) : Phrase .stepped
  | decrement (operand : Phrase .stepped) : Phrase .stepped
  | unsigned (operand : Phrase .stepped) : Phrase .signed
  | negate (operand : Phrase .signed) : Phrase .signed
  | factor (operand : Phrase .signed) : Phrase .product
  | multiply (left : Phrase .product) (right : Phrase .signed) : Phrase .product
  | divide (left : Phrase .product) (right : Phrase .signed) : Phrase .product
  | term (operand : Phrase .product) : Phrase .sum
  | add (left : Phrase .sum) (right : Phrase .product) : Phrase .sum
  | subtract (left : Phrase .sum) (right : Phrase .product) : Phrase .sum

namespace Phrase

def tokens : {level : Level} → Phrase level → List TokenKind
  | _, number => [.number]
  | _, name => [.ident]
  | _, parens inner => .leftParen :: (inner.tokens ++ [.rightParen])
  | _, plain operand => operand.tokens
  | _, increment operand => operand.tokens ++ [.increment]
  | _, decrement operand => operand.tokens ++ [.decrement]
  | _, unsigned operand => operand.tokens
  | _, negate operand => .minus :: operand.tokens
  | _, factor operand => operand.tokens
  | _, multiply left right => left.tokens ++ .star :: right.tokens
  | _, divide left right => left.tokens ++ .slash :: right.tokens
  | _, term operand => operand.tokens
  | _, add left right => left.tokens ++ .plus :: right.tokens
  | _, subtract left right => left.tokens ++ .minus :: right.tokens

def length {level : Level} (phrase : Phrase level) : Nat :=
  phrase.tokens.length

/-- A node without a mark over some tokens from `start` on. -/
def spanning (tag : Tag) (start length : Nat) (children : List (MarkedTree Tag)) : MarkedTree Tag :=
  .node (some tag) start (start + length) false children

def tree : {level : Level} → (start : Nat) → Phrase level → MarkedTree Tag
  | _, start, number => spanning .number start 1 []
  | _, start, name => spanning .name start 1 []
  | _, start, parens inner => inner.tree (start + 1)
  | _, start, plain operand => operand.tree start
  | _, start, increment operand =>
      spanning .increment start (increment operand).length [operand.tree start]
  | _, start, decrement operand =>
      spanning .decrement start (decrement operand).length [operand.tree start]
  | _, start, unsigned operand => operand.tree start
  | _, start, negate operand =>
      spanning .negate start (negate operand).length [operand.tree (start + 1)]
  | _, start, factor operand => operand.tree start
  | _, start, multiply left right =>
      spanning .multiply start (multiply left right).length
        [left.tree start, right.tree (start + left.length + 1)]
  | _, start, divide left right =>
      spanning .divide start (divide left right).length
        [left.tree start, right.tree (start + left.length + 1)]
  | _, start, term operand => operand.tree start
  | _, start, add left right =>
      spanning .add start (add left right).length
        [left.tree start, right.tree (start + left.length + 1)]
  | _, start, subtract left right =>
      spanning .subtract start (subtract left right).length
        [left.tree start, right.tree (start + left.length + 1)]

def applied (operator : String) (operands : List (List Char)) : List Char :=
  '(' :: operator.toList ++ (operands.map (' ' :: ·)).flatten ++ [')']

/-- The s-expression of a phrase, given how the token at each place is written. -/
def written (text : Nat → List Char) : {level : Level} → (start : Nat) → Phrase level → List Char
  | _, start, number => text start
  | _, start, name => text start
  | _, start, parens inner => inner.written text (start + 1)
  | _, start, plain operand => operand.written text start
  | _, start, increment operand => applied "++" [operand.written text start]
  | _, start, decrement operand => applied "--" [operand.written text start]
  | _, start, unsigned operand => operand.written text start
  | _, start, negate operand => applied "neg" [operand.written text (start + 1)]
  | _, start, factor operand => operand.written text start
  | _, start, multiply left right =>
      applied "*" [left.written text start, right.written text (start + left.length + 1)]
  | _, start, divide left right =>
      applied "/" [left.written text start, right.written text (start + left.length + 1)]
  | _, start, term operand => operand.written text start
  | _, start, add left right =>
      applied "+" [left.written text start, right.written text (start + left.length + 1)]
  | _, start, subtract left right =>
      applied "-" [left.written text start, right.written text (start + left.length + 1)]

variable {level : Level}

theorem bookmark_tree (phrase : Phrase level) (start : Nat) :
    (phrase.tree start).bookmark = false := by
  induction phrase generalizing start with
  | parens _ ih => exact ih (start + 1)
  | plain _ ih => exact ih start
  | unsigned _ ih => exact ih start
  | factor _ ih => exact ih start
  | term _ ih => exact ih start
  | _ => rfl

theorem unmark_tree (phrase : Phrase level) (start : Nat) :
    (phrase.tree start).unmark = phrase.tree start := by
  have plain := phrase.bookmark_tree start
  cases grown : phrase.tree start with
  | node tag first stop bookmark children =>
      rw [grown] at plain
      cases plain
      rfl

end Phrase

/-- An operator between two operands, the left one a phrase of the same kind. -/
structure Operator (l k : Level) where
  token : TokenKind
  tag : Tag
  build : Phrase l → Phrase k → Phrase l
  tokens : ∀ left right, (build left right).tokens = left.tokens ++ token :: right.tokens
  tree : ∀ left right start, (build left right).tree start =
    Phrase.spanning tag start (build left right).length
      [left.tree start, right.tree (start + left.length + 1)]

namespace Operator

def plus : Operator .sum .product :=
  ⟨.plus, .add, .add, fun _ _ => rfl, fun _ _ _ => rfl⟩

def minus : Operator .sum .product :=
  ⟨.minus, .subtract, .subtract, fun _ _ => rfl, fun _ _ _ => rfl⟩

def star : Operator .product .signed :=
  ⟨.star, .multiply, .multiply, fun _ _ => rfl, fun _ _ _ => rfl⟩

def slash : Operator .product .signed :=
  ⟨.slash, .divide, .divide, fun _ _ => rfl, fun _ _ _ => rfl⟩

theorem length_build {l k : Level} (operator : Operator l k) (left : Phrase l) (right : Phrase k) :
    (operator.build left right).length = left.length + 1 + right.length := by
  simp only [Phrase.length, operator.tokens, List.length_append, List.length_cons]
  omega

end Operator

end PegForest.Calculator
