import PegForest.Input.Window
import PegForest.Matcher.Basic
import PegForest.Matcher.Loop

/-!
# What matchers mean

`Matcher.eval` gives the action of a matcher on a window of an input, from the actions of the rules
it may call.  It goes by recursion on the matcher alone.  `Grammar.call` ties the knot: rules may
call each other up to a depth, and a call beyond it is `exhausted`.

This is what `Matcher.onSpan` does to a valid span, said of cursors.
-/

set_option autoImplicit false

namespace PegForest

namespace Action

variable {α τ : Type}

def one (window : Window α) (test : α → Except Fault Bool) : Action τ := fun ctx cursor =>
  match window.peek? cursor with
  | none => .ok (.failed cursor, ctx)
  | some a => do
      let passed ← test a
      return (if passed then .matched (cursor + 1) else .failed cursor, ctx)

def literal (order : Comparator α) (window : Window α) : List α → Action τ
  | [] => succeed
  | expected :: rest => fun ctx cursor =>
      match window.peek? cursor with
      | none => .ok (.failed cursor, ctx)
      | some a =>
          if order.same a expected then literal order window rest ctx (cursor + 1)
          else .ok (.failed cursor, ctx)

def endOfInput (window : Window α) : Action τ := fun ctx cursor =>
  .ok (if cursor = window.limit then .matched cursor else .failed cursor, ctx)

def backref (order : Comparator α) (window : Window α) (name : String) : Action τ :=
  fun ctx cursor => do
    let range ← ctx.getRef name
    let atoms ← slice window.source range.start range.stop
    literal order window atoms.toList ctx cursor

def skip (window : Window α) (count : Nat) : Action τ := fun ctx cursor =>
  if count ≤ window.left cursor then .ok (.matched (cursor + count), ctx)
  else .error (.advancePastLimit count window.limit cursor)

def failAt (window : Window α) (offset : Nat) : Action τ := fun ctx _ =>
  if offset ≤ window.source.size then .ok (.failed offset, ctx)
  else .error (.failureOutside offset window.source.size)

end Action

namespace Matcher

variable {α τ ρ : Type} [Atom α]

mutual

def eval (order : Comparator α) (window : Window α) (call : ρ → Action τ) :
    Matcher α τ ρ → Action τ
  | .one kind => .one window (kind.test order)
  | .literal atoms => .literal order window atoms
  | .endOfInput => .endOfInput window
  | .seq steps => .sequence (evalAll order window call steps)
  | .seqOpt steps => .sequenceOpt (evalAll order window call steps)
  | .choice alternatives => .choice (evalAll order window call alternatives)
  | .nonEmpty inner => .nonEmpty (inner.eval order window call)
  | .star inner => fun ctx cursor =>
      (inner.eval order window call).greedy (.stop .exhausted) (window.left cursor + 1) ctx cursor
  | .plus inner =>
      (inner.eval order window call).thenIfMoved fun ctx cursor =>
        (inner.eval order window call).greedy (.stop .exhausted) (window.left cursor + 1) ctx cursor
  | .opt inner => .optional (inner.eval order window call)
  | .times count inner => .times (inner.eval order window call) count
  | .timesBetween least most inner =>
      (inner.eval order window call).atLeast
        ((inner.eval order window call).greedy .succeed (most - least)) least
  | .ahead inner => .ahead (inner.eval order window call)
  | .notAhead inner => .notAhead (inner.eval order window call)
  | .upTo inner => fun ctx cursor =>
      (inner.eval order window call).upTo (window.left cursor) ctx cursor
  | .block opening item closing =>
      (opening.eval order window call).andThen fun ctx cursor =>
        Action.blockRounds (item.eval order window call) (closing.eval order window call)
          (window.left cursor + 1) ctx cursor
  | .list opening item separator closing =>
      (opening.eval order window call).andThen fun ctx cursor =>
        Action.listRounds (item.eval order window call) (separator.eval order window call)
          (closing.eval order window call) (window.left cursor + 1) ctx cursor
  | .store name inner => .store name (inner.eval order window call)
  | .backref name => .backref order window name
  | .node tag bookmark inner => .node tag bookmark (inner.eval order window call)
  | .promote inner => .promote (inner.eval order window call)
  | .rule name => call name
  | .skip count => .skip window count
  | .failAt offset => .failAt window offset

def evalAll (order : Comparator α) (window : Window α) (call : ρ → Action τ) :
    List (Matcher α τ ρ) → List (Action τ)
  | [] => []
  | matcher :: rest => matcher.eval order window call :: evalAll order window call rest

end

end Matcher

namespace Grammar

variable {α τ ρ : Type} [Atom α]

/-- The action of a rule whose calls nest at most `depth` deep. -/
def call (grammar : Grammar α τ ρ) (order : Comparator α) (window : Window α) :
    (depth : Nat) → ρ → Action τ
  | 0, _ => .stop .exhausted
  | depth + 1, rule => (grammar rule).eval order window (call grammar order window depth)

def run (grammar : Grammar α τ ρ) (order : Comparator α) (depth : Nat) (window : Window α)
    (matcher : Matcher α τ ρ) : Action τ :=
  matcher.eval order window (grammar.call order window depth)

/-- One level for each rule at each place of an input, and more: rules that call rules only after
an atom was consumed do not need as many. -/
def enoughDepth (rules atoms : Nat) : Nat :=
  (rules + 1) * (atoms + 1)

end Grammar

end PegForest
