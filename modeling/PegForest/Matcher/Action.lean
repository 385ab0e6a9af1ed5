import PegForest.Context.Basic
import PegForest.Input.Span

/-!
# Actions

All that changes of a span while a match goes on is the cursor.  An action is the meaning of a matcher
in these terms: from a context and a cursor it goes to a verdict and a changed context, or to a fault.
The combinators here do on cursors what those of `SpanAction` do on spans; that the two agree, that the
input and the limit stay the same and that no span is asked for more than it has is proved in
`Proofs.Matcher.OnSpan`.  Only some of them clean up after a failure: `attempt` does, a plain sequence
does not, and whoever goes on after a failure uses `attempt`.
-/

set_option autoImplicit false

namespace PegForest

inductive Verdict where
  | matched (cursor : Nat)
  | failed (offset : Nat)
  deriving DecidableEq, Repr

def Verdict.toSpan {α : Type} (source : Array α) (limit : Nat) : Verdict → Span α
  | .matched cursor => .valid source cursor limit
  | .failed offset => .failed source offset

def Span.verdict {α : Type} (span : Span α) : Verdict :=
  match span.cursor? with
  | some cursor => .matched cursor
  | none => .failed span.position

abbrev Action (τ : Type) := Context τ → Nat → Except Fault (Verdict × Context τ)

namespace Action

variable {τ : Type}

def succeed : Action τ := fun ctx cursor =>
  .ok (.matched cursor, ctx)

def stop (fault : Fault) : Action τ := fun _ _ =>
  .error fault

def andThen (first second : Action τ) : Action τ := fun ctx cursor => do
  match ← first ctx cursor with
  | (.matched next, ctx) => second ctx next
  | (.failed offset, ctx) => return (.failed offset, ctx)

def attempt (action : Action τ) : Action τ := fun ctx cursor => do
  let entry := ctx.checkpoint
  match ← action ctx cursor with
  | (.matched next, ctx) => return (.matched next, ctx)
  | (.failed offset, ctx) =>
      let ctx ← ctx.rewind entry
      return (.failed offset, ctx)

def probe (action : Action τ) : Action τ := fun ctx cursor => do
  let entry := ctx.checkpoint
  let (verdict, ctx) ← action ctx cursor
  let ctx ← ctx.rewind entry
  return (verdict, ctx)

def sequence : List (Action τ) → Action τ
  | [] => succeed
  | action :: rest => action.andThen (sequence rest)

def sequenceOpt : List (Action τ) → Action τ
  | [] => succeed
  | action :: rest => fun ctx cursor => do
      match ← action.attempt ctx cursor with
      | (.matched next, ctx) => sequenceOpt rest ctx next
      | (.failed _, ctx) => return (.matched cursor, ctx)

/-- The first action that matches, all tried at one place; if none does, the furthest failure, but
none before `offset`. -/
def firstOf (offset : Nat) : List (Action τ) → Action τ
  | [] => fun ctx _ => .ok (.failed offset, ctx)
  | action :: rest => fun ctx cursor => do
      match ← action.attempt ctx cursor with
      | (.matched next, ctx) => return (.matched next, ctx)
      | (.failed furthest, ctx) => firstOf (max offset furthest) rest ctx cursor

def choice (actions : List (Action τ)) : Action τ := fun ctx cursor =>
  firstOf cursor actions ctx cursor

def nonEmpty (action : Action τ) : Action τ := fun ctx cursor => do
  let entry := ctx.checkpoint
  match ← action ctx cursor with
  | (.matched next, ctx) =>
      if next = cursor then
        let ctx ← ctx.rewind entry
        return (.failed cursor, ctx)
      else return (.matched next, ctx)
  | (.failed offset, ctx) => return (.failed offset, ctx)

def optional (action : Action τ) : Action τ := fun ctx cursor => do
  match ← action.attempt ctx cursor with
  | (.matched next, ctx) => return (.matched next, ctx)
  | (.failed _, ctx) => return (.matched cursor, ctx)

def ahead (action : Action τ) : Action τ := fun ctx cursor => do
  match ← action.probe ctx cursor with
  | (.matched _, ctx) => return (.matched cursor, ctx)
  | (.failed offset, ctx) => return (.failed offset, ctx)

def notAhead (action : Action τ) : Action τ := fun ctx cursor => do
  match ← action.probe ctx cursor with
  | (.matched _, ctx) => return (.failed cursor, ctx)
  | (.failed _, ctx) => return (.matched cursor, ctx)

def store (name : String) (action : Action τ) : Action τ := fun ctx cursor => do
  match ← action ctx cursor with
  | (.matched next, ctx) =>
      let ctx ← ctx.storeRef name ⟨cursor, next⟩
      return (.matched next, ctx)
  | (.failed offset, ctx) => return (.failed offset, ctx)

/-- An action and then a change of the forest that is given the last root from before, the cursor
from before and the cursor after; a failure leaves the context as it was. -/
def building (change : Context τ → Option NodeId → Nat → Nat → Except Fault (Context τ))
    (action : Action τ) : Action τ := fun ctx cursor => do
  let watermark := ctx.watermark
  match ← action.attempt ctx cursor with
  | (.matched next, ctx) =>
      let ctx ← change ctx watermark cursor next
      return (.matched next, ctx)
  | (.failed offset, ctx) => return (.failed offset, ctx)

def node (tag : Option τ) (bookmark : Bool) : Action τ → Action τ :=
  building fun ctx watermark start stop => ctx.close watermark tag start stop bookmark

def promote : Action τ → Action τ :=
  building fun ctx watermark start stop => ctx.promote watermark start stop

end Action

end PegForest
