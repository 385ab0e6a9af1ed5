import PegForest.Context.Basic
import PegForest.Input.Span
import PegForest.Matcher.Basic

/-!
# Matching on spans

A matcher takes a valid span to a span over the same input, with the cursor moved on or failed, and
changes a context on the way.  The combinators here do so through the operations of spans, and each
of them looks at what it is given back: `attempt` and `probe` take back what was built, a sequence
stops at a span that has failed, and a loop goes on with a valid one only.

A loop without a count of its own is given the number of rounds it may take: every round but the
last consumes an atom, so one more than the number of atoms left is enough, and a loop that needs
more is `exhausted`.

Whenever a matcher runs another one, the function `enter` is applied to what that one does.  A match
is run with the identity; another function tells something about the places where matchers are run.
-/

set_option autoImplicit false

namespace PegForest

abbrev SpanAction (α τ : Type) := Context τ → Span α → Except Fault (Span α × Context τ)

def Span.rounds {α : Type} (span : Span α) : Nat :=
  span.limit - span.position + 1

namespace SpanAction

variable {α τ : Type}

def succeed : SpanAction α τ := fun ctx span =>
  .ok (span, ctx)

def fail : SpanAction α τ := fun ctx span => do
  let failed ← span.fail
  return (failed, ctx)

def stop (fault : Fault) : SpanAction α τ := fun _ _ =>
  .error fault

def skip (count : Nat) : SpanAction α τ := fun ctx span => do
  let next ← span.advance count
  return (next, ctx)

def failAt (offset : Nat) : SpanAction α τ := fun ctx span => do
  let failed ← span.failAt offset
  return (failed, ctx)

def one (test : α → Except Fault Bool) : SpanAction α τ := fun ctx span => do
  match span.peek? with
  | none => fail ctx span
  | some a => if ← test a then skip 1 ctx span else fail ctx span

def literal (order : Comparator α) : List α → SpanAction α τ
  | [] => succeed
  | expected :: rest => fun ctx span => do
      match span.peek? with
      | none => fail ctx span
      | some a =>
          if order.same a expected then
            let next ← span.advance 1
            literal order rest ctx next
          else fail ctx span

def endOfInput : SpanAction α τ := fun ctx span =>
  if span.isEmpty then .ok (span, ctx) else fail ctx span

def backref (order : Comparator α) (name : String) : SpanAction α τ := fun ctx span => do
  let range ← ctx.getRef name
  let atoms ← slice span.source range.start range.stop
  literal order atoms.toList ctx span

/-- An action that leaves the context as it was when it fails. -/
def attempt (action : SpanAction α τ) : SpanAction α τ := fun ctx span => do
  let entry := ctx.checkpoint
  let (next, ctx) ← action ctx span
  if next.isValid then return (next, ctx)
  else
    let ctx ← ctx.rewind entry
    return (next, ctx)

/-- The answer of an action, with the context as it was. -/
def probe (action : SpanAction α τ) : SpanAction α τ := fun ctx span => do
  let entry := ctx.checkpoint
  let (answer, ctx) ← action ctx span
  let ctx ← ctx.rewind entry
  return (answer, ctx)

def andThen (first second : SpanAction α τ) : SpanAction α τ := fun ctx span => do
  let (next, ctx) ← first ctx span
  if next.isValid then second ctx next else return (next, ctx)

def sequence : List (SpanAction α τ) → SpanAction α τ
  | [] => succeed
  | action :: rest => action.andThen (sequence rest)

def sequenceOpt : List (SpanAction α τ) → SpanAction α τ
  | [] => succeed
  | action :: rest => fun ctx span => do
      let (next, ctx) ← action.attempt ctx span
      if next.isValid then sequenceOpt rest ctx next else return (span, ctx)

/-- The first action that matches, each of them tried from the checkpoint; if none does, the furthest
failure. -/
def firstOf (entry : Checkpoint) : List (SpanAction α τ) → (failure : Span α) → SpanAction α τ
  | [], failure => fun ctx _ => .ok (failure, ctx)
  | action :: rest, failure => fun ctx span => do
      let (next, ctx) ← action ctx span
      if next.isValid then return (next, ctx)
      else
        let ctx ← ctx.rewind entry
        firstOf entry rest (failure.furthest next) ctx span

def choice (actions : List (SpanAction α τ)) : SpanAction α τ := fun ctx span => do
  let failure ← span.fail
  firstOf ctx.checkpoint actions failure ctx span

def nonEmpty (action : SpanAction α τ) : SpanAction α τ := fun ctx span => do
  let entry := ctx.checkpoint
  let (next, ctx) ← action ctx span
  if next.isValid ∧ next.cursor? = span.cursor? then
    let ctx ← ctx.rewind entry
    fail ctx span
  else return (next, ctx)

def optional (action : SpanAction α τ) : SpanAction α τ := fun ctx span => do
  let (next, ctx) ← action.attempt ctx span
  return (if next.isValid then next else span, ctx)

def ahead (action : SpanAction α τ) : SpanAction α τ := fun ctx span => do
  let (answer, ctx) ← action.probe ctx span
  return (if answer.isValid then span else answer, ctx)

def notAhead (action : SpanAction α τ) : SpanAction α τ := fun ctx span => do
  let (answer, ctx) ← action.probe ctx span
  if answer.isValid then fail ctx span else return (span, ctx)

/-- Repeat an action until it fails or matches nothing; after `rounds` rounds do `last` instead. -/
def greedy (action last : SpanAction α τ) : (rounds : Nat) → SpanAction α τ
  | 0 => last
  | rounds + 1 => fun ctx span => do
      let (next, ctx) ← action.attempt ctx span
      if next.isValid then
        if next.cursor? = span.cursor? then return (next, ctx)
        else greedy action last rounds ctx next
      else return (span, ctx)

def star (action : SpanAction α τ) : SpanAction α τ := fun ctx span =>
  action.greedy (stop .exhausted) span.rounds ctx span

def thenIfMoved (first second : SpanAction α τ) : SpanAction α τ := fun ctx span => do
  let (next, ctx) ← first ctx span
  if next.isValid ∧ next.cursor? ≠ span.cursor? then second ctx next else return (next, ctx)

def times (action : SpanAction α τ) : (count : Nat) → SpanAction α τ
  | 0 => succeed
  | count + 1 => action.andThen (times action count)

/-- An action `count` times and then another, unless a round matches nothing. -/
def atLeast (action rest : SpanAction α τ) : (count : Nat) → SpanAction α τ
  | 0 => rest
  | count + 1 => action.thenIfMoved (atLeast action rest count)

/-- Move on atom by atom to the first place where the action matches. -/
def upTo (action : SpanAction α τ) : (rounds : Nat) → SpanAction α τ
  | 0 => stop .exhausted
  | rounds + 1 => fun ctx span => do
      let (answer, ctx) ← action.probe ctx span
      if answer.isValid then return (span, ctx)
      else
        match span.peek? with
        | none => fail ctx span
        | some _ =>
            let next ← span.advance 1
            upTo action rounds ctx next

/-- The closing bracket or, where it is missing, another action and what comes after it; when that
action fails as well, the further of the two failures counts. -/
def closeOr (closing other after : SpanAction α τ) : SpanAction α τ := fun ctx span => do
  let (closed, ctx) ← closing.attempt ctx span
  if closed.isValid then return (closed, ctx)
  else
    let (next, ctx) ← other ctx span
    if next.isValid then after ctx next else return (closed.furthest next, ctx)

def blockRounds (item closing : SpanAction α τ) : (rounds : Nat) → SpanAction α τ
  | 0 => stop .exhausted
  | rounds + 1 => fun ctx span =>
      closing.closeOr item
        (fun ctx next =>
          if next.cursor? = span.cursor? then fail ctx span
          else blockRounds item closing rounds ctx next)
        ctx span

/-- Items and separators in turn up to a closing bracket, which may follow either; a round of both
has to consume something. -/
def listRounds (item separator closing : SpanAction α τ) : (rounds : Nat) → SpanAction α τ
  | 0 => stop .exhausted
  | rounds + 1 => fun ctx span =>
      closing.closeOr item
        (fun ctx afterItem =>
          closing.closeOr separator
            (fun ctx next =>
              if next.cursor? = span.cursor? then fail ctx afterItem
              else listRounds item separator closing rounds ctx next)
            ctx afterItem)
        ctx span

def store (name : String) (action : SpanAction α τ) : SpanAction α τ := fun ctx span => do
  let (next, ctx) ← action ctx span
  match span.cursor?, next.cursor? with
  | some start, some stop =>
      let ctx ← ctx.storeRef name ⟨start, stop⟩
      return (next, ctx)
  | _, _ => return (next, ctx)

/-- An action and then a change of the forest that is given the last root from before, the cursor
from before and the cursor after; a failure leaves the context as it was. -/
def building (change : Context τ → Option NodeId → Nat → Nat → Except Fault (Context τ))
    (action : SpanAction α τ) : SpanAction α τ := fun ctx span => do
  let entry := ctx.checkpoint
  let watermark := ctx.watermark
  let (next, ctx) ← action ctx span
  match span.cursor?, next.cursor? with
  | some start, some stop =>
      let ctx ← change ctx watermark start stop
      return (next, ctx)
  | _, _ =>
      let ctx ← ctx.rewind entry
      return (next, ctx)

def node (tag : Option τ) (bookmark : Bool) : SpanAction α τ → SpanAction α τ :=
  building fun ctx watermark start stop => ctx.close watermark tag start stop bookmark

def promote : SpanAction α τ → SpanAction α τ :=
  building fun ctx watermark start stop => ctx.promote watermark start stop

end SpanAction

namespace Matcher

variable {α τ ρ : Type} [Atom α]

mutual

def onSpan (order : Comparator α) (enter : SpanAction α τ → SpanAction α τ)
    (call : ρ → SpanAction α τ) : Matcher α τ ρ → SpanAction α τ
  | .one kind => .one (kind.test order)
  | .literal atoms => .literal order atoms
  | .endOfInput => .endOfInput
  | .seq steps => .sequence (enterAll order enter call steps)
  | .seqOpt steps => .sequenceOpt (enterAll order enter call steps)
  | .choice alternatives => .choice (enterAll order enter call alternatives)
  | .nonEmpty inner => .nonEmpty (enter (inner.onSpan order enter call))
  | .star inner => .star (enter (inner.onSpan order enter call))
  | .plus inner =>
      (enter (inner.onSpan order enter call)).thenIfMoved
        (.star (enter (inner.onSpan order enter call)))
  | .opt inner => .optional (enter (inner.onSpan order enter call))
  | .times count inner => .times (enter (inner.onSpan order enter call)) count
  | .timesBetween least most inner =>
      (enter (inner.onSpan order enter call)).atLeast
        ((enter (inner.onSpan order enter call)).greedy .succeed (most - least)) least
  | .ahead inner => .ahead (enter (inner.onSpan order enter call))
  | .notAhead inner => .notAhead (enter (inner.onSpan order enter call))
  | .upTo inner => fun ctx span =>
      (enter (inner.onSpan order enter call)).upTo span.rounds ctx span
  | .block opening item closing =>
      (enter (opening.onSpan order enter call)).andThen fun ctx span =>
        SpanAction.blockRounds (enter (item.onSpan order enter call))
          (enter (closing.onSpan order enter call)) span.rounds ctx span
  | .list opening item separator closing =>
      (enter (opening.onSpan order enter call)).andThen fun ctx span =>
        SpanAction.listRounds (enter (item.onSpan order enter call))
          (enter (separator.onSpan order enter call)) (enter (closing.onSpan order enter call))
          span.rounds ctx span
  | .store name inner => .store name (enter (inner.onSpan order enter call))
  | .backref name => .backref order name
  | .node tag bookmark inner => .node tag bookmark (enter (inner.onSpan order enter call))
  | .promote inner => .promote (enter (inner.onSpan order enter call))
  | .rule name => enter (call name)
  | .skip count => .skip count
  | .failAt offset => .failAt offset

def enterAll (order : Comparator α) (enter : SpanAction α τ → SpanAction α τ)
    (call : ρ → SpanAction α τ) : List (Matcher α τ ρ) → List (SpanAction α τ)
  | [] => []
  | matcher :: rest =>
      enter (matcher.onSpan order enter call) :: enterAll order enter call rest

end

end Matcher

namespace Grammar

variable {α τ ρ : Type} [Atom α]

def callOn (grammar : Grammar α τ ρ) (order : Comparator α)
    (enter : SpanAction α τ → SpanAction α τ) : (depth : Nat) → ρ → SpanAction α τ
  | 0, _ => .stop .exhausted
  | depth + 1, rule => (grammar rule).onSpan order enter (callOn grammar order enter depth)

/-- What a matcher does whose rule calls nest at most `depth` deep. -/
def enterOn (grammar : Grammar α τ ρ) (order : Comparator α) (depth : Nat)
    (enter : SpanAction α τ → SpanAction α τ) (matcher : Matcher α τ ρ) : SpanAction α τ :=
  enter (matcher.onSpan order enter (grammar.callOn order enter depth))

def runOn (grammar : Grammar α τ ρ) (order : Comparator α) (depth : Nat)
    (matcher : Matcher α τ ρ) : SpanAction α τ :=
  grammar.enterOn order depth id matcher

end Grammar

end PegForest
