import Mathlib.Logic.Relation
import PegForest.Matcher.Eval
import PegForest.Proofs.Fault

/-!
# Which matchers a run runs

A visit is a matcher at a place of a run, with the context that it meets there.  Running it runs
other matchers: the steps of a sequence up to the first that fails, the alternatives of a choice up
to the first that matches, the rounds of a loop, the body of a rule.  `Calls` lists these direct
calls, and a run as a whole invokes what can be reached by calls from its first visit.

Some calls are only tried: the caller goes on when they fail, and the failure is forgotten.  For the
closing bracket of a block or of a list that depends on what follows.  Where what is run in its
place matches, the bracket was only tried; where that fails as well, both failures count.
-/

set_option autoImplicit false

namespace PegForest

variable {α τ ρ : Type}

namespace Matcher

/-- What is run first, in the same place, and whether it is only tried. -/
def firstCall : Matcher α τ ρ → Option (Bool × Matcher α τ ρ)
  | .seq (matcher :: _) | .choice (matcher :: _) => some (false, matcher)
  | .seqOpt (matcher :: _) => some (true, matcher)
  | .nonEmpty inner | .plus inner | .ahead inner => some (false, inner)
  | .store _ inner | .node _ _ inner | .promote inner => some (false, inner)
  | .star inner | .opt inner | .notAhead inner | .upTo inner => some (true, inner)
  | .times (_ + 1) inner | .timesBetween (_ + 1) _ inner => some (false, inner)
  | .timesBetween 0 (_ + 1) inner => some (true, inner)
  | .block opening _ _ | .list opening _ _ _ => some (false, opening)
  | _ => none

/-- What is left to do once the first call has matched; a loop ends where it does not move on. -/
def afterMatch (moved : Bool) : Matcher α τ ρ → Option (Matcher α τ ρ)
  | .seq (_ :: rest) => some (.seq rest)
  | .seqOpt (_ :: rest) => some (.seqOpt rest)
  | .star inner | .plus inner => if moved then some (.star inner) else none
  | .times (count + 1) inner => some (.times count inner)
  | .timesBetween (least + 1) most inner =>
      if moved then some (.timesBetween least (most - 1) inner) else none
  | .timesBetween 0 (most + 1) inner => if moved then some (.timesBetween 0 most inner) else none
  | _ => none

/-- What is left to do once the first call has failed, and where. -/
def afterFailure (window : Window α) (cursor : Nat) :
    Matcher α τ ρ → Option (Matcher α τ ρ × Nat)
  | .choice (_ :: rest) => some (.choice rest, cursor)
  | .upTo inner => if window.left cursor = 0 then none else some (.upTo inner, cursor + 1)
  | _ => none

end Matcher

/-- What all visits of one run share. -/
structure Setting (α τ ρ : Type) where
  grammar : Grammar α τ ρ
  order : Comparator α
  window : Window α

structure Visit (α τ ρ : Type) where
  depth : Nat
  matcher : Matcher α τ ρ
  ctx : Context τ
  cursor : Nat

namespace Setting

variable [Atom α]

def action (setting : Setting α τ ρ) (depth : Nat) (matcher : Matcher α τ ρ) : Action τ :=
  setting.grammar.run setting.order depth setting.window matcher

def Matches (setting : Setting α τ ρ) (visit : Visit α τ ρ) (next : Nat) (ctx : Context τ) : Prop :=
  setting.action visit.depth visit.matcher visit.ctx visit.cursor = .ok (.matched next, ctx)

def FailsAt (setting : Setting α τ ρ) (visit : Visit α τ ρ) (offset : Nat) : Prop :=
  ∃ ctx, setting.action visit.depth visit.matcher visit.ctx visit.cursor = .ok (.failed offset, ctx)

def GivesUp (setting : Setting α τ ρ) (visit : Visit α τ ρ) (ctx : Context τ) : Prop :=
  ∃ offset, (setting.action visit.depth visit.matcher).attempt visit.ctx visit.cursor =
    .ok (.failed offset, ctx)

inductive CloseCalls (setting : Setting α τ ρ) (depth : Nat) (closing other : Matcher α τ ρ)
    (ctx : Context τ) (cursor : Nat) : Bool → Visit α τ ρ → Prop where
  | closing : CloseCalls setting depth closing other ctx cursor true ⟨depth, closing, ctx, cursor⟩
  | missing {ctx' : Context τ} {offset : Nat}
      (unclosed : setting.GivesUp ⟨depth, closing, ctx, cursor⟩ ctx')
      (failed : setting.FailsAt ⟨depth, other, ctx', cursor⟩ offset) :
      CloseCalls setting depth closing other ctx cursor false ⟨depth, closing, ctx, cursor⟩
  | other {ctx' : Context τ} (unclosed : setting.GivesUp ⟨depth, closing, ctx, cursor⟩ ctx') :
      CloseCalls setting depth closing other ctx cursor false ⟨depth, other, ctx', cursor⟩

inductive BlockCalls (setting : Setting α τ ρ) (depth : Nat) (item closing : Matcher α τ ρ) :
    Context τ → Nat → Bool → Visit α τ ρ → Prop where
  | round {ctx : Context τ} {cursor : Nat} {tried : Bool} {call : Visit α τ ρ}
      (calls : setting.CloseCalls depth closing item ctx cursor tried call) :
      BlockCalls setting depth item closing ctx cursor tried call
  | again {ctx ctx₁ ctx₂ : Context τ} {cursor next : Nat} {tried : Bool} {call : Visit α τ ρ}
      (unclosed : setting.GivesUp ⟨depth, closing, ctx, cursor⟩ ctx₁)
      (matched : setting.Matches ⟨depth, item, ctx₁, cursor⟩ next ctx₂) (moved : next ≠ cursor)
      (later : BlockCalls setting depth item closing ctx₂ next tried call) :
      BlockCalls setting depth item closing ctx cursor tried call

inductive ListCalls (setting : Setting α τ ρ) (depth : Nat)
    (item separator closing : Matcher α τ ρ) : Context τ → Nat → Bool → Visit α τ ρ → Prop where
  | round {ctx : Context τ} {cursor : Nat} {tried : Bool} {call : Visit α τ ρ}
      (calls : setting.CloseCalls depth closing item ctx cursor tried call) :
      ListCalls setting depth item separator closing ctx cursor tried call
  | separated {ctx ctx₁ ctx₂ : Context τ} {cursor afterItem : Nat} {tried : Bool}
      {call : Visit α τ ρ} (unclosed : setting.GivesUp ⟨depth, closing, ctx, cursor⟩ ctx₁)
      (matched : setting.Matches ⟨depth, item, ctx₁, cursor⟩ afterItem ctx₂)
      (calls : setting.CloseCalls depth closing separator ctx₂ afterItem tried call) :
      ListCalls setting depth item separator closing ctx cursor tried call
  | again {ctx ctx₁ ctx₂ ctx₃ ctx₄ : Context τ} {cursor afterItem next : Nat} {tried : Bool}
      {call : Visit α τ ρ} (unclosed : setting.GivesUp ⟨depth, closing, ctx, cursor⟩ ctx₁)
      (matched : setting.Matches ⟨depth, item, ctx₁, cursor⟩ afterItem ctx₂)
      (unclosed' : setting.GivesUp ⟨depth, closing, ctx₂, afterItem⟩ ctx₃)
      (matched' : setting.Matches ⟨depth, separator, ctx₃, afterItem⟩ next ctx₄)
      (moved : next ≠ cursor)
      (later : ListCalls setting depth item separator closing ctx₄ next tried call) :
      ListCalls setting depth item separator closing ctx cursor tried call

/-- The direct calls of a visit; the flag tells whether a call is only tried. -/
inductive Calls (setting : Setting α τ ρ) : Visit α τ ρ → Bool → Visit α τ ρ → Prop where
  | first {depth cursor : Nat} {matcher inner : Matcher α τ ρ} {ctx : Context τ} {tried : Bool}
      (called : matcher.firstCall = some (tried, inner)) :
      Calls setting ⟨depth, matcher, ctx, cursor⟩ tried ⟨depth, inner, ctx, cursor⟩
  | afterMatch {depth cursor next : Nat} {matcher inner rest : Matcher α τ ρ} {ctx ctx' : Context τ}
      {tried tried' : Bool} {call : Visit α τ ρ} (called : matcher.firstCall = some (tried, inner))
      (matched : setting.Matches ⟨depth, inner, ctx, cursor⟩ next ctx')
      (left : matcher.afterMatch (next != cursor) = some rest)
      (later : Calls setting ⟨depth, rest, ctx', next⟩ tried' call) :
      Calls setting ⟨depth, matcher, ctx, cursor⟩ tried' call
  | afterFailure {depth cursor cursor' : Nat} {matcher inner rest : Matcher α τ ρ}
      {ctx ctx' : Context τ} {tried tried' : Bool} {call : Visit α τ ρ}
      (called : matcher.firstCall = some (tried, inner))
      (refused : setting.GivesUp ⟨depth, inner, ctx, cursor⟩ ctx')
      (left : matcher.afterFailure setting.window cursor = some (rest, cursor'))
      (later : Calls setting ⟨depth, rest, ctx', cursor'⟩ tried' call) :
      Calls setting ⟨depth, matcher, ctx, cursor⟩ tried' call
  | block {depth cursor next : Nat} {opening item closing : Matcher α τ ρ} {ctx ctx' : Context τ}
      {tried : Bool} {call : Visit α τ ρ}
      (opened : setting.Matches ⟨depth, opening, ctx, cursor⟩ next ctx')
      (later : setting.BlockCalls depth item closing ctx' next tried call) :
      Calls setting ⟨depth, .block opening item closing, ctx, cursor⟩ tried call
  | list {depth cursor next : Nat} {opening item separator closing : Matcher α τ ρ}
      {ctx ctx' : Context τ} {tried : Bool} {call : Visit α τ ρ}
      (opened : setting.Matches ⟨depth, opening, ctx, cursor⟩ next ctx')
      (later : setting.ListCalls depth item separator closing ctx' next tried call) :
      Calls setting ⟨depth, .list opening item separator closing, ctx, cursor⟩ tried call
  | rule {depth cursor : Nat} {name : ρ} {ctx : Context τ} :
      Calls setting ⟨depth + 1, .rule name, ctx, cursor⟩ false
        ⟨depth, setting.grammar name, ctx, cursor⟩

/-- A visit invokes itself and whatever the visits that it invokes call. -/
def Invokes (setting : Setting α τ ρ) : Visit α τ ρ → Visit α τ ρ → Prop :=
  Relation.ReflTransGen fun visit call => ∃ tried, setting.Calls visit tried call

/-- The caller does not keep a failure of the call: it only tried it, or does not fail itself. -/
def Recovers (setting : Setting α τ ρ) (caller call : Visit α τ ρ) : Prop :=
  setting.Calls caller true call ∨ ∀ offset, ¬setting.FailsAt caller offset

/-- Somebody recovers among the calls that lead from one visit to another. -/
def Recovered (setting : Setting α τ ρ) (visit call : Visit α τ ρ) : Prop :=
  ∃ caller callee, setting.Invokes visit caller ∧ (∃ tried, setting.Calls caller tried callee) ∧
    setting.Recovers caller callee ∧ setting.Invokes callee call

/-- All callers on the way from one visit to another fail, and none of them only tries a call. -/
def Holds (setting : Setting α τ ρ) : Visit α τ ρ → Visit α τ ρ → Prop :=
  Relation.ReflTransGen fun visit call =>
    setting.Calls visit false call ∧ ∃ offset, setting.FailsAt visit offset

end Setting

end PegForest
