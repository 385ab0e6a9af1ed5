import Mathlib.Computability.Language

/-!
# The syntax of JSON

The grammar of RFC 8259, production by production.  Productions that do not call each other are
languages over characters: `+` is an alternative, `*` is one after another, `∗` is repetition and
`1` is nothing at all.  Values, members and their lists are derived by `Derives`.

Blanks belong to the structural characters, as they do in the standard, so an array or an object may
have blanks around it while a string or a number has none.
-/

set_option autoImplicit false

namespace PegForest.Json.Syntax

open scoped Computability

def letter (test : Char → Bool) : Language Char :=
  {w | ∃ c, test c = true ∧ w = [c]}

def among (set : List Char) (c : Char) : Bool :=
  set.contains c

def within (low high : Char) (c : Char) : Bool :=
  decide (low ≤ c) && decide (c ≤ high)

theorem among_iff {set : List Char} {c : Char} : among set c = true ↔ c ∈ set :=
  List.contains_iff_mem

theorem within_iff {low high c : Char} :
    within low high c = true ↔ low.toNat ≤ c.toNat ∧ c.toNat ≤ high.toNat := by
  rw [within, Bool.and_eq_true, decide_eq_true_eq, decide_eq_true_eq]
  exact Iff.rfl

def optional (language : Language Char) : Language Char :=
  1 + language

/-- `ws = *( %x20 / %x09 / %x0A / %x0D )` -/
def ws : Language Char :=
  (letter (among [' ', '\t', '\n', '\r']))∗

/-- A structural character, such as `begin-array = ws %x5B ws`. -/
def structural (mark : Char) : Language Char :=
  ws * letter (among [mark]) * ws

/-! ## Numbers -/

def digit : Language Char :=
  letter (within '0' '9')

/-- `1*DIGIT` -/
def digits : Language Char :=
  digit * digit∗

/-- `int = zero / ( digit1-9 *DIGIT )` -/
def integer : Language Char :=
  letter (among ['0']) + letter (within '1' '9') * digit∗

/-- `frac = decimal-point 1*DIGIT` -/
def fraction : Language Char :=
  letter (among ['.']) * digits

/-- `exp = e [ minus / plus ] 1*DIGIT` -/
def exponent : Language Char :=
  letter (among ['e', 'E']) * optional (letter (among ['-', '+'])) * digits

/-- `number = [ minus ] int [ frac ] [ exp ]` -/
def number : Language Char :=
  optional (letter (among ['-'])) * integer * optional fraction * optional exponent

/-! ## Strings -/

def hexDigit : Language Char :=
  digit + letter (within 'a' 'f') + letter (within 'A' 'F')

/-- `unescaped = %x20-21 / %x23-5B / %x5D-10FFFF` -/
def unescaped : Language Char :=
  letter (within '\x20' '\x21') + letter (within '\x23' '\x5B') +
    letter (within '\x5D' (Char.ofNat 0x10FFFF))

def escaped : Language Char :=
  letter (among ['\\']) *
    (letter (among ['"', '\\', '/', 'b', 'f', 'n', 'r', 't']) +
      letter (among ['u']) * hexDigit ^ 4)

/-- `string = quotation-mark *char quotation-mark` -/
def string : Language Char :=
  letter (among ['"']) * (unescaped + escaped)∗ * letter (among ['"'])

/-! ## Values -/

inductive Symbol where
  | value
  | member
  /-- `member *( value-separator member )` -/
  | members
  /-- `value *( value-separator value )` -/
  | elements

inductive Derives : Symbol → List Char → Prop where
  | true : Derives .value ['t', 'r', 'u', 'e']
  | false : Derives .value ['f', 'a', 'l', 's', 'e']
  | null : Derives .value ['n', 'u', 'l', 'l']
  | number {w : List Char} (derived : w ∈ number) : Derives .value w
  | string {w : List Char} (derived : w ∈ string) : Derives .value w
  | emptyArray {a b : List Char} (opening : a ∈ structural '[') (closing : b ∈ structural ']') :
      Derives .value (a ++ b)
  | array {a w b : List Char} (opening : a ∈ structural '[') (elements : Derives .elements w)
      (closing : b ∈ structural ']') : Derives .value (a ++ w ++ b)
  | emptyObject {a b : List Char} (opening : a ∈ structural '\x7b')
      (closing : b ∈ structural '\x7d') : Derives .value (a ++ b)
  | object {a w b : List Char} (opening : a ∈ structural '\x7b') (members : Derives .members w)
      (closing : b ∈ structural '\x7d') : Derives .value (a ++ w ++ b)
  | member {k s v : List Char} (key : k ∈ Syntax.string) (separator : s ∈ structural ':')
      (value : Derives .value v) : Derives .member (k ++ s ++ v)
  | lastMember {m : List Char} (member : Derives .member m) : Derives .members m
  | moreMembers {m s w : List Char} (member : Derives .member m) (separator : s ∈ structural ',')
      (others : Derives .members w) : Derives .members (m ++ s ++ w)
  | lastElement {v : List Char} (value : Derives .value v) : Derives .elements v
  | moreElements {v s w : List Char} (value : Derives .value v) (separator : s ∈ structural ',')
      (others : Derives .elements w) : Derives .elements (v ++ s ++ w)

def language (symbol : Symbol) : Language Char :=
  {w | Derives symbol w}

/-- `JSON-text = ws value ws` -/
def text : Language Char :=
  ws * language .value * ws

end PegForest.Json.Syntax
