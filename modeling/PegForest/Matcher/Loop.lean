import PegForest.Matcher.Action

/-!
# Repeated actions

Repetition takes as much as it can and never gives anything back.  A loop without a count of its own
is given the number of rounds it may take: every round but the last consumes an atom, so one more
than the number of atoms left is enough, and a loop that needs more is `exhausted`.
-/

set_option autoImplicit false

namespace PegForest.Action

variable {τ : Type}

def greedy (action last : Action τ) : (rounds : Nat) → Action τ
  | 0 => last
  | rounds + 1 => fun ctx cursor => do
      match ← action.attempt ctx cursor with
      | (.matched next, ctx) =>
          if next = cursor then return (.matched next, ctx) else greedy action last rounds ctx next
      | (.failed _, ctx) => return (.matched cursor, ctx)

def thenIfMoved (first second : Action τ) : Action τ := fun ctx cursor => do
  match ← first ctx cursor with
  | (.matched next, ctx) =>
      if next = cursor then return (.matched next, ctx) else second ctx next
  | (.failed offset, ctx) => return (.failed offset, ctx)

def times (action : Action τ) : (count : Nat) → Action τ
  | 0 => succeed
  | count + 1 => action.andThen (times action count)

def atLeast (action rest : Action τ) : (count : Nat) → Action τ
  | 0 => rest
  | count + 1 => action.thenIfMoved (atLeast action rest count)

def upTo (action : Action τ) : (left : Nat) → Action τ
  | 0 => fun ctx cursor => do
      match ← action.probe ctx cursor with
      | (.matched _, ctx) => return (.matched cursor, ctx)
      | (.failed _, ctx) => return (.failed cursor, ctx)
  | left + 1 => fun ctx cursor => do
      match ← action.probe ctx cursor with
      | (.matched _, ctx) => return (.matched cursor, ctx)
      | (.failed _, ctx) => upTo action left ctx (cursor + 1)

def closeOr (closing other after : Action τ) : Action τ := fun ctx cursor => do
  match ← closing.attempt ctx cursor with
  | (.matched next, ctx) => return (.matched next, ctx)
  | (.failed unclosed, ctx) =>
      match ← other ctx cursor with
      | (.matched next, ctx) => after ctx next
      | (.failed offset, ctx) => return (.failed (max unclosed offset), ctx)

def blockRounds (item closing : Action τ) : (rounds : Nat) → Action τ
  | 0 => stop .exhausted
  | rounds + 1 => fun ctx cursor =>
      closing.closeOr item
        (fun ctx next =>
          if next = cursor then .ok (.failed cursor, ctx)
          else blockRounds item closing rounds ctx next)
        ctx cursor

def listRounds (item separator closing : Action τ) : (rounds : Nat) → Action τ
  | 0 => stop .exhausted
  | rounds + 1 => fun ctx cursor =>
      closing.closeOr item
        (fun ctx afterItem =>
          closing.closeOr separator
            (fun ctx next =>
              if next = cursor then .ok (.failed afterItem, ctx)
              else listRounds item separator closing rounds ctx next)
            ctx afterItem)
        ctx cursor

end PegForest.Action
