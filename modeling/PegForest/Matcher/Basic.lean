import PegForest.Input.AtomClass

/-!
# Matchers

A matcher is a parsing expression over atoms of type `α` that may tag nodes with values of type
`τ` and call rules named by values of type `ρ`.  It is data; `Matcher.onSpan` says what it does.
-/

set_option autoImplicit false

namespace PegForest

inductive Matcher (α τ ρ : Type) where
  | one (kind : AtomClass α)
  | literal (atoms : List α)
  | endOfInput
  | seq (steps : List (Matcher α τ ρ))
  | seqOpt (steps : List (Matcher α τ ρ))
  | choice (alternatives : List (Matcher α τ ρ))
  | nonEmpty (inner : Matcher α τ ρ)
  | star (inner : Matcher α τ ρ)
  | plus (inner : Matcher α τ ρ)
  | opt (inner : Matcher α τ ρ)
  | times (count : Nat) (inner : Matcher α τ ρ)
  | timesBetween (least most : Nat) (inner : Matcher α τ ρ)
  /-- Nothing, where the inner matcher would match. -/
  | ahead (inner : Matcher α τ ρ)
  | notAhead (inner : Matcher α τ ρ)
  /-- Everything before the first place where the inner matcher would match. -/
  | upTo (inner : Matcher α τ ρ)
  | block (opening item closing : Matcher α τ ρ)
  /-- Separated items between two brackets; one more separator may stand at the end. -/
  | list (opening item separator closing : Matcher α τ ρ)
  /-- The inner matcher, with what it consumed stored under a name. -/
  | store (name : String) (inner : Matcher α τ ρ)
  | backref (name : String)
  /-- The inner matcher, with a node over what it consumed; a bookmark waits for a `promote`. -/
  | node (tag : Option τ) (bookmark : Bool) (inner : Matcher α τ ρ)
  /-- The inner matcher, with its bookmarks made the parents of what stands before them. -/
  | promote (inner : Matcher α τ ρ)
  | rule (name : ρ)
  | skip (count : Nat)
  | failAt (offset : Nat)

namespace Matcher

variable {α τ ρ : Type}

def atom (a : α) : Matcher α τ ρ :=
  .one (.exactly a)

def range (low high : α) : Matcher α τ ρ :=
  .one (.within low high)

def charset (set : List α) : Matcher α τ ρ :=
  .one (.among set)

def capture (tag : τ) (inner : Matcher α τ ρ) : Matcher α τ ρ :=
  .node (some tag) false inner

def group (inner : Matcher α τ ρ) : Matcher α τ ρ :=
  .node none false inner

def captureEnd (tag : τ) (inner : Matcher α τ ρ) : Matcher α τ ρ :=
  .node (some tag) true inner

end Matcher

abbrev Grammar (α τ ρ : Type) := ρ → Matcher α τ ρ

end PegForest
