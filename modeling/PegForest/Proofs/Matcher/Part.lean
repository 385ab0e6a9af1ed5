import Mathlib.Data.List.Basic
import PegForest.Matcher.Eval

/-!
# Parts of matchers

`parts` lists the matchers that a matcher is built from.  What holds of a matcher and of all that it
is built from, however deep, is said with `Every`; what a matcher uses in a grammar also goes through
the rules that it calls.
-/

set_option autoImplicit false

namespace PegForest

variable {α τ ρ : Type}

namespace Matcher

def parts : Matcher α τ ρ → List (Matcher α τ ρ)
  | .seq parts | .seqOpt parts | .choice parts => parts
  | .nonEmpty inner | .star inner | .plus inner | .opt inner => [inner]
  | .ahead inner | .notAhead inner | .upTo inner | .promote inner => [inner]
  | .times _ inner | .store _ inner => [inner]
  | .timesBetween _ _ inner | .node _ _ inner => [inner]
  | .block opening item closing => [opening, item, closing]
  | .list opening item separator closing => [opening, item, separator, closing]
  | .one _ | .literal _ | .endOfInput | .backref _ | .rule _ | .skip _ | .failAt _ => []

inductive PartOf : Matcher α τ ρ → Matcher α τ ρ → Prop where
  | self (matcher : Matcher α τ ρ) : PartOf matcher matcher
  | deep {inner part whole : Matcher α τ ρ} (member : part ∈ whole.parts)
      (deeper : PartOf inner part) : PartOf inner whole

def Every (P : Matcher α τ ρ → Prop) (matcher : Matcher α τ ρ) : Prop :=
  ∀ part, PartOf part matcher → P part

variable {P Q : Matcher α τ ρ → Prop} {matcher : Matcher α τ ρ}

theorem Every.here (every : matcher.Every P) : P matcher :=
  every matcher (.self matcher)

theorem Every.parts (every : matcher.Every P) : ∀ part ∈ matcher.parts, part.Every P := by
  intro part member inner deeper
  exact every inner (.deep member deeper)

theorem Every.inner {inner : Matcher α τ ρ} (every : matcher.Every P)
    (only : matcher.parts = [inner]) : inner.Every P :=
  every.parts inner (by rw [only]; exact List.mem_singleton_self inner)

/-- `P` holds of the matcher and of its parts, and these go no deeper than so many levels. -/
def Within (P : Matcher α τ ρ → Prop) : Nat → Matcher α τ ρ → Prop
  | 0, _ => False
  | levels + 1, matcher => P matcher ∧ matcher.parts.Forall (Within P levels)

theorem Every.of_within {levels : Nat} (within : matcher.Within P levels) : matcher.Every P := by
  intro part partOf
  induction levels generalizing matcher with
  | zero => exact within.elim
  | succ levels ih =>
      cases partOf with
      | self => exact within.1
      | deep member deeper => exact ih (List.forall_iff_forall_mem.mp within.2 _ member) deeper

end Matcher

/-- What a matcher uses in a grammar: itself, its parts, the bodies of the rules it calls, and what
these use. -/
inductive Grammar.Uses (grammar : Grammar α τ ρ) : Matcher α τ ρ → Matcher α τ ρ → Prop where
  | self (matcher : Matcher α τ ρ) : Uses grammar matcher matcher
  | part {whole part inner : Matcher α τ ρ} (member : part ∈ whole.parts)
      (uses : Uses grammar part inner) : Uses grammar whole inner
  | rule {name : ρ} {inner : Matcher α τ ρ} (uses : Uses grammar (grammar name) inner) :
      Uses grammar (.rule name) inner

theorem Grammar.Uses.of_partOf {grammar : Grammar α τ ρ} {matcher part inner : Matcher α τ ρ}
    (partOf : part.PartOf matcher) (uses : grammar.Uses part inner) : grammar.Uses matcher inner := by
  induction partOf with
  | self => exact uses
  | deep member _ ih => exact .part member ih

/-- What holds of a matcher and its parts, and of the bodies of the rules that it may call and of
their parts, holds of all that the matcher uses. -/
theorem Grammar.Uses.of_every {grammar : Grammar α τ ρ} {P : Matcher α τ ρ → Prop}
    {matcher inner : Matcher α τ ρ} (uses : grammar.Uses matcher inner)
    (bodies : ∀ name, P (.rule name) → (grammar name).Every P) (every : matcher.Every P) :
    P inner := by
  induction uses with
  | self => exact every.here
  | part member _ ih => exact ih (every.parts _ member)
  | rule _ ih => exact ih (bodies _ every.here)

end PegForest
