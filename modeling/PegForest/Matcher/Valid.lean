import PegForest.Matcher.Basic

/-!
# Matchers that may be used

A set without members and a literal without atoms are refused before a matcher is run.  When there
are several, the leftmost one counts.
-/

set_option autoImplicit false

namespace PegForest.Matcher

variable {α τ ρ : Type}

mutual

/-- Refuse the first part that no matcher may have: an empty set or an empty literal. -/
def validate : Matcher α τ ρ → Except Fault Unit
  | .one kind => kind.validate
  | .literal atoms => if atoms.isEmpty then .error .emptyLiteral else .ok ()
  | .seq parts | .seqOpt parts | .choice parts => validateAll parts
  | .nonEmpty inner | .star inner | .plus inner | .opt inner => inner.validate
  | .ahead inner | .notAhead inner | .upTo inner | .promote inner => inner.validate
  | .times _ inner | .store _ inner => inner.validate
  | .timesBetween _ _ inner | .node _ _ inner => inner.validate
  | .block opening item closing => do
      opening.validate
      item.validate
      closing.validate
  | .list opening item separator closing => do
      opening.validate
      item.validate
      separator.validate
      closing.validate
  | .endOfInput | .backref _ | .rule _ | .skip _ | .failAt _ => .ok ()

def validateAll : List (Matcher α τ ρ) → Except Fault Unit
  | [] => .ok ()
  | part :: rest => do
      part.validate
      validateAll rest

end

end PegForest.Matcher
