import PegForest.Forest.Walk
import PegForest.Language.Json.Grammar
import PegForest.Language.Json.Unescape
import PegForest.Number.Decimal
import PegForest.Parser.Basic

/-!
# JSON values

`parse` reads a text as one JSON document and decodes its tree.  Objects keep their members in the
order of the text, also members of the same name.  A node of a tree that some other grammar built
is decoded as well: a member on its own is an object of one member, a missing key is empty, a
missing value is null, and a number that cannot be read is not a number.
-/

set_option autoImplicit false

namespace PegForest.Json

inductive Value where
  | null
  | bool (b : Bool)
  | number (x : Binary64)
  | string (s : String)
  | array (elements : List Value)
  | object (members : List (String × Value))

/-- The value of a node, and a member of an object from a member node; what `decode` gives for the
node of a value is a parameter. -/
def decodeMember (forest : Forest Tag) (source : Array UInt8)
    (decode : NodeId → Except Fault Value) (id : NodeId) : Except Fault (String × Value) := do
  match ← forest.children id with
  | [] => return ("", .null)
  | key :: rest =>
      let name ← forest.text key source
      match rest with
      | [] => return (unescape name.toList, .null)
      | value :: _ =>
          let value ← decode value
          return (unescape name.toList, value)

/-- The value of a node whose descendants are at most `depth` deep. -/
def decodeAt (forest : Forest Tag) (source : Array UInt8) :
    (depth : Nat) → NodeId → Except Fault Value
  | 0, id => .error (.staleId id)
  | depth + 1, id => do
      let covered ← forest.text id source
      let node ← forest.node id
      match node.tag with
      | none => return .null
      | some .null => return .null
      | some .true => return .bool .true
      | some .false => return .bool .false
      | some .number => return .number ((Decimal.read? covered.toList).getD .nan)
      | some .string => return .string (unescape covered.toList)
      | some .array =>
          let children ← forest.children id
          let elements ← children.mapM (decodeAt forest source depth)
          return .array elements
      | some .object =>
          let children ← forest.children id
          let members ← children.mapM (decodeMember forest source (decodeAt forest source depth))
          return .object members
      | some .member =>
          let member ← decodeMember forest source (decodeAt forest source depth) id
          return .object [member]

def decode (forest : Forest Tag) (source : Array UInt8) (id : NodeId) : Except Fault Value :=
  decodeAt forest source (forest.size + 1) id

def parser : Parser :=
  { nonterminal := "<json>" }

def parse (ctx : Context Tag) (text : String) :
    Except Fault (Except ParseError Value × Context Tag) := do
  let input := Text.Utf8.encode text
  let (answer, ctx) ← parser.runOn Text.byteLiteral
    (grammar.runOn .natural (input.size + 1) (.rule .value)) ctx input
  match answer with
  | .error error => return (.error error, ctx)
  | .ok _ =>
      match ctx.forestD.head with
      | none => return (.error (.unexpected ⟨0, 0⟩ parser.nonterminal "empty document"), ctx)
      | some root =>
          let value ← decode ctx.forestD input root
          return (.ok value, ctx)

end PegForest.Json
