import PegForest.Language.Calculator.Evaluate
import PegForest.Proofs.Calculator.Follow

/-!
# Values of phrases

The value of a phrase is computed over the integers without bounds: division rounds toward zero,
`++` adds one and `--` subtracts one.  There is no value if a divisor is zero or a name stands for
nothing.  The results of a phrase are the values of its literals and operators.

Computing with integers of 64 bits gives up at the first result that does not fit.  So it leads to
the value of the phrase if all results fit, and to nothing otherwise: a value that fits after all
does not make up for a result on the way that does not.
-/

set_option autoImplicit false

namespace PegForest.Calculator

def Fits (n : Int) : Prop :=
  -9223372036854775808 ≤ n ∧ n ≤ 9223372036854775807

/-- What the numbers and names of a phrase stand for, by the places of their tokens. -/
structure Leaves where
  number : (place : Nat) → Int
  name : (place : Nat) → Option Int

/-- An operator on two values, both of which are needed. -/
def combine (operator : Int → Int → Option Int) (first second : Option Int) : Option Int :=
  first.bind fun a => second.bind fun b => operator a b

def exactQuotient (a b : Int) : Option Int :=
  if b = 0 then none else some (a.tdiv b)

namespace Phrase

/-- The value of a phrase over the integers. -/
def value (leaves : Leaves) : {level : Level} → (start : Nat) → Phrase level → Option Int
  | _, start, number => some (leaves.number start)
  | _, start, name => leaves.name start
  | _, start, parens inner => inner.value leaves (start + 1)
  | _, start, plain operand => operand.value leaves start
  | _, start, increment operand => (operand.value leaves start).map (· + 1)
  | _, start, decrement operand => (operand.value leaves start).map (· - 1)
  | _, start, unsigned operand => operand.value leaves start
  | _, start, negate operand => (operand.value leaves (start + 1)).map (- ·)
  | _, start, factor operand => operand.value leaves start
  | _, start, multiply left right =>
      combine (fun a b => some (a * b)) (left.value leaves start)
        (right.value leaves (start + left.length + 1))
  | _, start, divide left right =>
      combine exactQuotient (left.value leaves start)
        (right.value leaves (start + left.length + 1))
  | _, start, term operand => operand.value leaves start
  | _, start, add left right =>
      combine (fun a b => some (a + b)) (left.value leaves start)
        (right.value leaves (start + left.length + 1))
  | _, start, subtract left right =>
      combine (fun a b => some (a - b)) (left.value leaves start)
        (right.value leaves (start + left.length + 1))

def results (leaves : Leaves) : {level : Level} → (start : Nat) → Phrase level → List (Option Int)
  | _, start, number => [number.value leaves start]
  | _, _, name => []
  | _, start, parens inner => inner.results leaves (start + 1)
  | _, start, plain operand => operand.results leaves start
  | _, start, increment operand =>
      (increment operand).value leaves start :: operand.results leaves start
  | _, start, decrement operand =>
      (decrement operand).value leaves start :: operand.results leaves start
  | _, start, unsigned operand => operand.results leaves start
  | _, start, negate operand =>
      (negate operand).value leaves start :: operand.results leaves (start + 1)
  | _, start, factor operand => operand.results leaves start
  | _, start, multiply left right =>
      (multiply left right).value leaves start ::
        (left.results leaves start ++ right.results leaves (start + left.length + 1))
  | _, start, divide left right =>
      (divide left right).value leaves start ::
        (left.results leaves start ++ right.results leaves (start + left.length + 1))
  | _, start, term operand => operand.results leaves start
  | _, start, add left right =>
      (add left right).value leaves start ::
        (left.results leaves start ++ right.results leaves (start + left.length + 1))
  | _, start, subtract left right =>
      (subtract left right).value leaves start ::
        (left.results leaves start ++ right.results leaves (start + left.length + 1))

def computed (leaf : Tag → (place : Nat) → Option Int) :
    {level : Level} → (start : Nat) → Phrase level → Option Int
  | _, start, number => leaf .number start
  | _, start, name => leaf .name start
  | _, start, parens inner => inner.computed leaf (start + 1)
  | _, start, plain operand => operand.computed leaf start
  | _, start, increment operand => operate .increment [operand.computed leaf start]
  | _, start, decrement operand => operate .decrement [operand.computed leaf start]
  | _, start, unsigned operand => operand.computed leaf start
  | _, start, negate operand => operate .negate [operand.computed leaf (start + 1)]
  | _, start, factor operand => operand.computed leaf start
  | _, start, multiply left right =>
      operate .multiply
        [left.computed leaf start, right.computed leaf (start + left.length + 1)]
  | _, start, divide left right =>
      operate .divide
        [left.computed leaf start, right.computed leaf (start + left.length + 1)]
  | _, start, term operand => operand.computed leaf start
  | _, start, add left right =>
      operate .add
        [left.computed leaf start, right.computed leaf (start + left.length + 1)]
  | _, start, subtract left right =>
      operate .subtract
        [left.computed leaf start, right.computed leaf (start + left.length + 1)]

end Phrase

/-- All results fit, as far as there are any. -/
def AllFit (results : List (Option Int)) : Prop :=
  ∀ result ∈ results, ∀ n ∈ result, Fits n

/-- What is computed is the value, if all results fit. -/
def Exact (answer value : Option Int) (results : List (Option Int)) : Prop :=
  ∀ v, answer = some v ↔ value = some v ∧ AllFit results

variable {a b x y : Option Int} {results others : List (Option Int)}

theorem allFit_cons {result : Option Int} :
    AllFit (result :: results) ↔ (∀ n ∈ result, Fits n) ∧ AllFit results :=
  List.forall_mem_cons

theorem allFit_append : AllFit (results ++ others) ↔ AllFit results ∧ AllFit others :=
  List.forall_mem_append

theorem checked_eq_some {n v : Int} : checked n = some v ↔ n = v ∧ Fits n := by
  unfold checked Fits leastInteger greatestInteger
  rw [Option.ite_none_right_eq_some, Option.some_inj, and_comm]

theorem quotient_eq (a b : Int) : quotient? a b = (exactQuotient a b).bind checked := by
  unfold quotient? exactQuotient
  split <;> rfl

theorem exact_literal (n : Int) : Exact (checked n) (some n) [some n] := by
  intro v
  rw [checked_eq_some, Option.some_inj, allFit_cons]
  simp [AllFit]

theorem Exact.unary (agrees : Exact a x results) (operator : Int → Int) :
    Exact (a.bind fun n => checked (operator n)) (x.map operator) (x.map operator :: results) := by
  intro v
  rw [allFit_cons]
  constructor
  · intro computed
    obtain ⟨n, found, checks⟩ := Option.bind_eq_some_iff.mp computed
    obtain ⟨rfl, fits⟩ := checked_eq_some.mp checks
    obtain ⟨rfl, inner⟩ := (agrees n).mp found
    refine ⟨rfl, ?_, inner⟩
    intro m same
    cases same
    exact fits
  · rintro ⟨valued, fits, inner⟩
    obtain ⟨n, rfl, rfl⟩ := Option.map_eq_some_iff.mp valued
    exact Option.bind_eq_some_iff.mpr
      ⟨n, (agrees n).mpr ⟨rfl, inner⟩, checked_eq_some.mpr ⟨rfl, fits _ rfl⟩⟩

theorem Exact.binary (agrees : Exact a x results) (agrees' : Exact b y others)
    (operator : Int → Int → Option Int) :
    Exact (a.bind fun m => b.bind fun n => (operator m n).bind checked) (combine operator x y)
      (combine operator x y :: (results ++ others)) := by
  intro v
  rw [allFit_cons, allFit_append]
  constructor
  · intro computed
    obtain ⟨m, found, rest⟩ := Option.bind_eq_some_iff.mp computed
    obtain ⟨n, found', rest'⟩ := Option.bind_eq_some_iff.mp rest
    obtain ⟨w, combined, checks⟩ := Option.bind_eq_some_iff.mp rest'
    obtain ⟨rfl, fits⟩ := checked_eq_some.mp checks
    obtain ⟨rfl, inner⟩ := (agrees m).mp found
    obtain ⟨rfl, inner'⟩ := (agrees' n).mp found'
    have valued : combine operator (some m) (some n) = some w := combined
    refine ⟨valued, ?_, inner, inner'⟩
    intro k same
    rw [valued] at same
    cases same
    exact fits
  · rintro ⟨valued, fits, inner, inner'⟩
    obtain ⟨m, rfl, rest⟩ := Option.bind_eq_some_iff.mp valued
    obtain ⟨n, rfl, combined⟩ := Option.bind_eq_some_iff.mp rest
    have found := (agrees m).mpr ⟨rfl, inner⟩
    have found' := (agrees' n).mpr ⟨rfl, inner'⟩
    rw [found, found', Option.bind_some, Option.bind_some, combined, Option.bind_some,
      checked_eq_some]
    exact ⟨rfl, fits v valued⟩

/-! ## Phrases -/

variable {kinds : Array TokenKind} {leaf : Tag → (place : Nat) → Option Int} {leaves : Leaves}
  {level : Level} {start : Nat} {rest : List TokenKind}

/-- What is known of the leaves is right: a number is there if it fits, and names stand for the
same. -/
structure Knows (kinds : Array TokenKind) (leaf : Tag → (place : Nat) → Option Int)
    (leaves : Leaves) : Prop where
  number : ∀ place, kinds[place]? = some .number →
    leaf .number place = checked (leaves.number place)
  name : ∀ place, leaf .name place = leaves.name place

theorem At.operands {left right : List TokenKind} {operator : TokenKind}
    (place : At kinds start (left ++ operator :: right ++ rest)) :
    At kinds start (left ++ (operator :: right ++ rest)) ∧
      At kinds (start + left.length + 1) (right ++ rest) := by
  rw [List.append_assoc] at place
  exact ⟨place, place.append.tail⟩

/-- Along its tokens, a phrase is computed exactly. -/
theorem Knows.exact (knows : Knows kinds leaf leaves) (phrase : Phrase level)
    (place : At kinds start (phrase.tokens ++ rest)) :
    Exact (phrase.computed leaf start) (phrase.value leaves start)
      (phrase.results leaves start) := by
  induction phrase generalizing start rest with
  | number =>
      have here : kinds[start]? = some .number := place.head
      have found := knows.number start here
      rw [Phrase.computed, found]
      exact exact_literal _
  | name =>
      rw [Phrase.computed, knows.name]
      intro v
      simp [Phrase.value, Phrase.results, AllFit]
  | parens inner ih =>
      have inside : At kinds (start + 1) (inner.tokens ++ (.rightParen :: rest)) := by
        have later : At kinds (start + 1) (inner.tokens ++ [.rightParen] ++ rest) := place.tail
        rwa [List.append_assoc] at later
      exact ih inside
  | plain operand ih => exact ih place
  | unsigned operand ih => exact ih place
  | factor operand ih => exact ih place
  | term operand ih => exact ih place
  | increment operand ih =>
      rw [Phrase.tokens, List.append_assoc] at place
      exact (ih place).unary (· + 1)
  | decrement operand ih =>
      rw [Phrase.tokens, List.append_assoc] at place
      exact (ih place).unary (· - 1)
  | negate operand ih => exact (ih place.tail).unary (- ·)
  | multiply left right ih ih' =>
      obtain ⟨place, place'⟩ := At.operands place
      exact (ih place).binary (ih' place') fun a b => some (a * b)
  | divide left right ih ih' =>
      obtain ⟨place, place'⟩ := At.operands place
      -- The quotient is the one operation that is not there for all operands.
      have divided := (ih place).binary (ih' place') exactQuotient
      simp only [← quotient_eq] at divided
      exact divided
  | add left right ih ih' =>
      obtain ⟨place, place'⟩ := At.operands place
      exact (ih place).binary (ih' place') fun a b => some (a + b)
  | subtract left right ih ih' =>
      obtain ⟨place, place'⟩ := At.operands place
      exact (ih place).binary (ih' place') fun a b => some (a - b)

theorem number_of_append {front back : List TokenKind} {offset : Nat}
    (found : (front ++ back)[offset]? = some .number) :
    front[offset]? = some .number ∨
      ∃ later, offset = front.length + later ∧ back[later]? = some .number := by
  rw [List.getElem?_append] at found
  split at found
  · exact .inl found
  · exact .inr ⟨offset - front.length, by omega, found⟩

theorem number_of_cons {token : TokenKind} {ts : List TokenKind} {offset : Nat}
    (other : token ≠ .number) (found : (token :: ts)[offset]? = some .number) :
    ∃ later, offset = later + 1 ∧ ts[later]? = some .number := by
  cases offset with
  | zero => exact absurd (Option.some.inj found) other
  | succ later => exact ⟨later, rfl, found⟩

namespace Phrase

def ListsNumbers (leaves : Leaves) (phrase : Phrase level) : Prop :=
  ∀ {offset : Nat} (start : Nat), phrase.tokens[offset]? = some .number →
    some (leaves.number (start + offset)) ∈ phrase.results leaves start

theorem ListsNumbers.operands {l k : Level} {left : Phrase l} {right : Phrase k}
    (lists : left.ListsNumbers leaves) (lists' : right.ListsNumbers leaves) {operator : TokenKind}
    (other : operator ≠ .number) {offset : Nat} (start : Nat)
    (literal : (left.tokens ++ operator :: right.tokens)[offset]? = some .number) :
    some (leaves.number (start + offset)) ∈
      left.results leaves start ++ right.results leaves (start + left.length + 1) := by
  rw [List.mem_append]
  rcases number_of_append literal with here | ⟨behind, rfl, found⟩
  · exact .inl (lists start here)
  · obtain ⟨later, rfl, found⟩ := number_of_cons other found
    have inside := lists' (start + left.length + 1) found
    rw [show start + left.length + 1 + later = start + (left.tokens.length + (later + 1)) by
      rw [Phrase.length]; omega] at inside
    exact .inr inside

theorem ListsNumbers.suffixed {operand : Phrase level} (lists : operand.ListsNumbers leaves)
    {operator : TokenKind} (other : operator ≠ .number) {offset : Nat} (start : Nat)
    (literal : (operand.tokens ++ [operator])[offset]? = some .number) :
    some (leaves.number (start + offset)) ∈ operand.results leaves start := by
  rcases number_of_append literal with here | ⟨behind, rfl, found⟩
  · exact lists start here
  · obtain ⟨later, rfl, found⟩ := number_of_cons other found
    cases found

theorem ListsNumbers.behind {operand : Phrase level} (lists : operand.ListsNumbers leaves)
    {operator : TokenKind} (other : operator ≠ .number) {offset : Nat} (start : Nat)
    (literal : (operator :: operand.tokens)[offset]? = some .number) :
    some (leaves.number (start + offset)) ∈ operand.results leaves (start + 1) := by
  obtain ⟨later, rfl, found⟩ := number_of_cons other literal
  have inside := lists (start + 1) found
  rwa [Nat.add_right_comm] at inside

theorem listsNumbers (leaves : Leaves) (phrase : Phrase level) : phrase.ListsNumbers leaves := by
  induction phrase with
  | number =>
      intro offset start literal
      cases offset with
      | zero => exact List.mem_singleton_self _
      | succ offset => cases literal
  | name =>
      intro offset start literal
      cases offset with
      | zero => cases literal
      | succ offset => cases literal
  | parens inner ih =>
      intro offset start literal
      obtain ⟨later, rfl, found⟩ := number_of_cons (by decide) literal
      have inside := ih.suffixed (by decide) (start + 1) found
      rwa [Nat.add_right_comm] at inside
  | plain operand ih => exact ih
  | unsigned operand ih => exact ih
  | factor operand ih => exact ih
  | term operand ih => exact ih
  | increment operand ih =>
      intro offset start literal
      exact List.mem_cons_of_mem _ (ih.suffixed (by decide) start literal)
  | decrement operand ih =>
      intro offset start literal
      exact List.mem_cons_of_mem _ (ih.suffixed (by decide) start literal)
  | negate operand ih =>
      intro offset start literal
      exact List.mem_cons_of_mem _ (ih.behind (by decide) start literal)
  | multiply left right ih ih' =>
      intro offset start literal
      exact List.mem_cons_of_mem _ (ih.operands ih' (by decide) start literal)
  | divide left right ih ih' =>
      intro offset start literal
      exact List.mem_cons_of_mem _ (ih.operands ih' (by decide) start literal)
  | add left right ih ih' =>
      intro offset start literal
      exact List.mem_cons_of_mem _ (ih.operands ih' (by decide) start literal)
  | subtract left right ih ih' =>
      intro offset start literal
      exact List.mem_cons_of_mem _ (ih.operands ih' (by decide) start literal)

end Phrase

end PegForest.Calculator
