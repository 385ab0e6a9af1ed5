import PegForest.Forest.Walk
import PegForest.Language.Calculator.Expression
import PegForest.Parser.Basic
import PegForest.Text.Utf8

/-!
# A calculator

A calculator turns a source into tokens and the tokens into a tree, and keeps both contexts for
the next source.  The tree counts tokens; errors are given in bytes of the source.
-/

set_option autoImplicit false

namespace PegForest

structure Calculator where
  lexer : Context Calculator.TokenKind
  parser : Context Calculator.Tag
  tokens : Array Calculator.Token
  kinds : Array Calculator.TokenKind

namespace Calculator

def fresh : Calculator :=
  ⟨.freshTree, .freshTree, #[], #[]⟩

def tokenParser : Parser :=
  { nonterminal := "<tokens>" }

def expressionParser : Parser :=
  { nonterminal := "<expr>" }

def tokenOf (forest : Forest TokenKind) (id : NodeId) : Except Fault (Option Token) := do
  let node ← forest.node id
  return node.tag.map fun kind => ⟨kind, node.start, node.stop⟩

def tokensOf (forest : Forest TokenKind) : Except Fault (Array Token) := do
  let roots ← forest.roots
  let tokens ← roots.mapM (tokenOf forest)
  return (tokens.filterMap id).toArray

/-- Split a source into tokens; the tokens from before stay when that fails. -/
def tokenize (state : Calculator) (source : String) :
    Except Fault (Except ParseError (Array Token) × Calculator) := do
  let input := Text.Utf8.encode source
  let (answer, lexer) ← tokenParser.runOn Text.byteLiteral
    (tokenGrammar.runOn .natural 0 tokenRun) state.lexer input
  match answer with
  | .error error => return (.error error, { state with lexer })
  | .ok _ =>
      let tokens ← tokensOf lexer.forestD
      return (.ok tokens, { state with lexer, tokens, kinds := tokens.map Token.kind })

/-- An error over tokens as an error over a source of `size` bytes. -/
def locate (tokens : Array Token) (size : Nat) (error : ParseError) : ParseError :=
  let range : Range :=
    match tokens[error.offset]? with
    | some token => ⟨token.start, token.stop⟩
    | none => ⟨size, size⟩
  match error with
  | .unexpected _ nonterminal detail => .unexpected range nonterminal detail
  | .trailing _ => .trailing ⟨range.start, size⟩

def parse (state : Calculator) (source : String) :
    Except Fault (Except ParseError Unit × Calculator) := do
  let (answer, state) ← state.tokenize source
  match answer with
  | .error error => return (.error error, state)
  | .ok _ =>
      let (answer, parser) ← expressionParser.runOn Atom.describe
        (grammar.runOn .natural (state.kinds.size + 1) (.rule .expression))
        state.parser state.kinds
      let state := { state with parser }
      match answer with
      | .error error => return (.error (locate state.tokens (Text.Utf8.encode source).size error), state)
      | .ok _ => return (.ok (), state)

def tokenText (tokens : Array Token) (source : Array UInt8) (node : Node Tag) : List UInt8 :=
  match tokens[node.start]? with
  | none => []
  | some token => (source.extract token.start token.stop).toList

end Calculator

end PegForest
