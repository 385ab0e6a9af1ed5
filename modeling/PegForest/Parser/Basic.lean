import PegForest.Input.Window
import PegForest.Matcher.Action
import PegForest.Matcher.OnSpan
import PegForest.Parser.Error

/-!
# Parsing a whole input

A parser runs a grammar over a whole input and turns the span after it into an answer: the number of
atoms consumed, or an error that says where the grammar failed or what it left over.  It reports
both ends of the story as events.
-/

set_option autoImplicit false

namespace PegForest

structure Parser where
  /-- Whether the grammar has to consume the whole input. -/
  full : Bool := true
  nonterminal : String := "<input>"
  /-- Whether the context is emptied first. -/
  reset : Bool := true
  deriving DecidableEq, Repr

namespace Parser

def unexpected {α : Type} (parser : Parser) (describe : α → String) (input : Array α)
    (offset : Nat) : ParseError :=
  match input[offset]? with
  | some a => .unexpected ⟨offset, offset + 1⟩ parser.nonterminal ("unexpected " ++ describe a)
  | none => .unexpected ⟨offset, offset⟩ parser.nonterminal "unexpected end of input"

/-- The answer to a verdict over the whole input. -/
def conclude {α τ : Type} (parser : Parser) (describe : α → String) (input : Array α)
    (ctx : Context τ) : Verdict → Except ParseError Nat × Context τ
  | .failed offset =>
      (.error (parser.unexpected describe input offset),
        ctx.emit (.parseFailed parser.nonterminal offset input.size))
  | .matched consumed =>
      let ctx := ctx.emit (.parseMatched parser.nonterminal consumed input.size)
      if parser.full && decide (consumed < input.size) then
        (.error (.trailing ⟨consumed, input.size⟩), ctx)
      else (.ok consumed, ctx)

/-- Run a matcher on the whole of an input; atoms are described as `describe` says. -/
def runOn {α τ : Type} (parser : Parser) (describe : α → String) (matcher : SpanAction α τ)
    (ctx : Context τ) (input : Array α) : Except Fault (Except ParseError Nat × Context τ) := do
  let ctx := if parser.reset then ctx.reset else ctx
  let (stop, ctx) ← matcher ctx (.whole input)
  return parser.conclude describe input ctx stop.verdict

def run {α τ : Type} (parser : Parser) (describe : α → String)
    (action : Window α → Action τ) (ctx : Context τ) (input : Array α) :
    Except Fault (Except ParseError Nat × Context τ) := do
  let ctx := if parser.reset then ctx.reset else ctx
  let (verdict, ctx) ← action ⟨input, input.size⟩ ctx 0
  return parser.conclude describe input ctx verdict

end Parser

end PegForest
