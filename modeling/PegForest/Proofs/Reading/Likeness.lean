import PegForest.Proofs.Fault
import PegForest.Proofs.Reading.Advance

/-!
# Readings that are alike

Two readings are alike when they move alike: from one place both match up to the same place, or both
fail at the same offset, or both stop.  What they build and store, and the faults that they stop
with, may differ as a `Likeness` says.  Every combinator takes alike readings to alike readings, so
two matchers are compared by comparing what they differ in.

A place that is reached lies between the place before it and the limit.  This is what loops live on:
every round but the last moves on, so a loop with one round more than there are atoms left never
runs out of rounds.
-/

set_option autoImplicit false

namespace PegForest

variable {τ τ' : Type}

structure Likeness (τ τ' : Type) where
  refs : List Backref → List Backref → Prop
  trees : List (MarkedTree τ) → List (MarkedTree τ') → Prop
  stops : Fault → Fault → Prop
  refs_nil : refs [] []
  refs_append : ∀ {front front' back back'}, refs front front' → refs back back' →
    refs (front ++ back) (front' ++ back')
  trees_nil : trees [] []
  trees_append : ∀ {front front' back back'}, trees front front' → trees back back' →
    trees (front ++ back) (front' ++ back')

inductive Likeness.Outcomes (like : Likeness τ τ') (limit cursor : Nat) :
    Outcome τ → Outcome τ' → Prop where
  | matched {next : Nat} {trees : List (MarkedTree τ)} {trees' : List (MarkedTree τ')}
      {stored stored' : List Backref} (forward : cursor ≤ next) (bounded : next ≤ limit)
      (built : like.trees trees trees') (kept : like.refs stored stored') :
      Outcomes like limit cursor (.matched next trees stored) (.matched next trees' stored')
  | failed (offset : Nat) : Outcomes like limit cursor (.failed offset) (.failed offset)

namespace Likeness.Outcomes

variable {like : Likeness τ τ'} {limit cursor : Nat}

theorem stays (within : cursor ≤ limit) :
    like.Outcomes limit cursor (.matched cursor [] []) (.matched cursor [] []) :=
  .matched (Nat.le_refl cursor) within like.trees_nil like.refs_nil

theorem after {next : Nat} {trees : List (MarkedTree τ)} {trees' : List (MarkedTree τ')}
    {stored stored' : List Backref} {outcome : Outcome τ} {outcome' : Outcome τ'}
    (forward : cursor ≤ next) (built : like.trees trees trees') (kept : like.refs stored stored')
    (alike : like.Outcomes limit next outcome outcome') :
    like.Outcomes limit cursor (outcome.after trees stored) (outcome'.after trees' stored') := by
  cases alike with
  | matched forward' bounded built' kept' =>
      exact .matched (Nat.le_trans forward forward') bounded (like.trees_append built built')
        (like.refs_append kept kept')
  | failed offset => exact .failed offset

end Likeness.Outcomes

namespace Reading

/-- The readings are alike from every place up to the limit. -/
def Alike (like : Likeness τ τ') (limit : Nat) (reading : Reading τ) (other : Reading τ') : Prop :=
  ∀ refs refs' cursor, cursor ≤ limit → like.refs refs refs' →
    Concur like.stops (like.Outcomes limit cursor) (reading refs cursor) (other refs' cursor)

variable {like : Likeness τ τ'} {limit : Nat} {reading first second last item separator closing :
  Reading τ} {reading' first' second' last' item' separator' closing' : Reading τ'}

theorem alike_succeed : Alike like limit succeed succeed := by
  intro refs refs' cursor within _
  exact .ok (.stays within)

theorem alike_stop {fault fault' : Fault} (related : like.stops fault fault') :
    Alike like limit (stop fault) (stop fault') := by
  intro refs refs' cursor _ _
  exact .error related

theorem resume_alike {refs refs' stored stored' : List Backref} {cursor next : Nat}
    {trees : List (MarkedTree τ)} {trees' : List (MarkedTree τ')} (forward : cursor ≤ next)
    (built : like.trees trees trees') (kept : like.refs stored stored')
    (there : Concur like.stops (like.Outcomes limit next) (second (refs ++ stored) next)
      (second' (refs' ++ stored') next)) :
    Concur like.stops (like.Outcomes limit cursor) (second.resume refs next trees stored)
      (second'.resume refs' next trees' stored') := by
  apply there.bind
  intro outcome outcome' related
  exact .ok (.after forward built kept related)

theorem Alike.resume (alike : Alike like limit second second') {refs refs' stored stored' : List Backref}
    {cursor next : Nat} {trees : List (MarkedTree τ)} {trees' : List (MarkedTree τ')}
    (before : like.refs refs refs') (forward : cursor ≤ next) (bounded : next ≤ limit)
    (built : like.trees trees trees') (kept : like.refs stored stored') :
    Concur like.stops (like.Outcomes limit cursor) (second.resume refs next trees stored)
      (second'.resume refs' next trees' stored') :=
  resume_alike forward built kept (alike _ _ next bounded (like.refs_append before kept))

theorem Alike.andThen (alike : Alike like limit first first')
    (alike' : Alike like limit second second') :
    Alike like limit (first.andThen second) (first'.andThen second') := by
  intro refs refs' cursor within before
  apply (alike refs refs' cursor within before).bind
  intro _ _ related
  cases related with
  | matched forward bounded built kept => exact alike'.resume before forward bounded built kept
  | failed offset => exact .ok (.failed offset)

theorem Alike.sequence {readings : List (Reading τ)} {readings' : List (Reading τ')}
    (alike : List.Forall₂ (Alike like limit) readings readings') :
    Alike like limit (sequence readings) (sequence readings') := by
  induction alike with
  | nil => exact alike_succeed
  | cons here _ ih => exact here.andThen ih

theorem Alike.sequenceOpt {readings : List (Reading τ)} {readings' : List (Reading τ')}
    (alike : List.Forall₂ (Alike like limit) readings readings') :
    Alike like limit (sequenceOpt readings) (sequenceOpt readings') := by
  induction alike with
  | nil => exact alike_succeed
  | cons here _ ih =>
      intro refs refs' cursor within before
      apply (here refs refs' cursor within before).bind
      intro _ _ related
      cases related with
      | matched forward bounded built kept => exact ih.resume before forward bounded built kept
      | failed offset => exact .ok (.stays within)

theorem Alike.firstOf {readings : List (Reading τ)} {readings' : List (Reading τ')}
    (alike : List.Forall₂ (Alike like limit) readings readings') (offset : Nat) :
    Alike like limit (firstOf offset readings) (firstOf offset readings') := by
  induction alike generalizing offset with
  | nil =>
      intro refs refs' cursor _ _
      exact .ok (.failed offset)
  | cons here _ ih =>
      intro refs refs' cursor within before
      apply (here refs refs' cursor within before).bind
      intro _ _ related
      cases related with
      | matched forward bounded built kept => exact .ok (.matched forward bounded built kept)
      | failed furthest => exact ih (max offset furthest) refs refs' cursor within before

theorem Alike.choice {readings : List (Reading τ)} {readings' : List (Reading τ')}
    (alike : List.Forall₂ (Alike like limit) readings readings') :
    Alike like limit (choice readings) (choice readings') := by
  intro refs refs' cursor
  exact Alike.firstOf alike cursor refs refs' cursor

theorem Alike.nonEmpty (alike : Alike like limit reading reading') :
    Alike like limit reading.nonEmpty reading'.nonEmpty := by
  intro refs refs' cursor within before
  apply (alike refs refs' cursor within before).bind
  intro _ _ related
  cases related with
  | @matched next _ _ _ _ forward bounded built kept =>
      by_cases same : next = cursor
      · simp only [if_pos same]
        exact .ok (.failed cursor)
      · simp only [if_neg same]
        exact .ok (.matched forward bounded built kept)
  | failed offset => exact .ok (.failed offset)

theorem Alike.optional (alike : Alike like limit reading reading') :
    Alike like limit reading.optional reading'.optional := by
  intro refs refs' cursor within before
  apply (alike refs refs' cursor within before).bind
  intro _ _ related
  cases related with
  | matched forward bounded built kept => exact .ok (.matched forward bounded built kept)
  | failed offset => exact .ok (.stays within)

theorem Alike.ahead (alike : Alike like limit reading reading') :
    Alike like limit reading.ahead reading'.ahead := by
  intro refs refs' cursor within before
  apply (alike refs refs' cursor within before).bind
  intro _ _ related
  cases related with
  | matched _ _ _ _ => exact .ok (.stays within)
  | failed offset => exact .ok (.failed offset)

theorem Alike.notAhead (alike : Alike like limit reading reading') :
    Alike like limit reading.notAhead reading'.notAhead := by
  intro refs refs' cursor within before
  apply (alike refs refs' cursor within before).bind
  intro _ _ related
  cases related with
  | matched _ _ _ _ => exact .ok (.failed cursor)
  | failed offset => exact .ok (.stays within)

theorem Alike.store (alike : Alike like limit reading reading')
    (kept : ∀ entry, like.refs [entry] [entry]) (name : String) :
    Alike like limit (reading.store name) (reading'.store name) := by
  intro refs refs' cursor within before
  apply (alike refs refs' cursor within before).bind
  intro _ _ related
  cases related with
  | matched forward bounded built kept' =>
      exact .ok (.matched forward bounded built (like.refs_append kept' (kept _)))
  | failed offset => exact .ok (.failed offset)

/-- What one of the readings builds is changed afterwards. -/
theorem Alike.building_left (alike : Alike like limit reading reading')
    {change : Nat → Nat → List (MarkedTree τ) → List (MarkedTree τ)}
    (changed : ∀ start stop trees trees', like.trees trees trees' →
      like.trees (change start stop trees) trees') :
    Alike like limit (reading.building change) reading' := by
  intro refs refs' cursor within before
  rw [← bind_pure (reading' refs' cursor)]
  apply (alike refs refs' cursor within before).bind
  intro _ _ related
  cases related with
  | matched forward bounded built kept =>
      exact .ok (.matched forward bounded (changed _ _ _ _ built) kept)
  | failed offset => exact .ok (.failed offset)

/-! ## Loops -/

/-- Each round moves on, so the rounds run out only at places as far ahead as there are rounds. -/
theorem alike_greedy (alike : Alike like limit reading reading') (rounds : Nat) :
    ∀ refs refs' cursor, cursor ≤ limit → like.refs refs refs' →
      (∀ refs refs' place, place ≤ limit → cursor + rounds ≤ place → like.refs refs refs' →
        Concur like.stops (like.Outcomes limit place) (last refs place) (last' refs' place)) →
      Concur like.stops (like.Outcomes limit cursor) (reading.greedy last rounds refs cursor)
        (reading'.greedy last' rounds refs' cursor) := by
  induction rounds with
  | zero =>
      intro refs refs' cursor within before atEnd
      exact atEnd refs refs' cursor within (Nat.le_refl cursor) before
  | succ rounds ih =>
      intro refs refs' cursor within before atEnd
      apply (alike refs refs' cursor within before).bind
      intro _ _ related
      cases related with
      | @matched next _ _ _ _ forward bounded built kept =>
          by_cases same : next = cursor
          · simp only [if_pos same]
            exact .ok (.matched forward bounded built kept)
          · simp only [if_neg same]
            apply resume_alike forward built kept
            apply ih _ _ next bounded (like.refs_append before kept)
            intro refs refs' place within' far before'
            exact atEnd refs refs' place within' (by omega) before'
      | failed offset => exact .ok (.stays within)

theorem Alike.greedy (alike : Alike like limit reading reading')
    (alike' : Alike like limit last last') (rounds : Nat) :
    Alike like limit (reading.greedy last rounds) (reading'.greedy last' rounds) := by
  intro refs refs' cursor within before
  apply alike_greedy alike rounds refs refs' cursor within before
  intro refs refs' place within' _ before'
  exact alike' refs refs' place within' before'

/-- As many rounds as there are places left, and one more, are never used up. -/
theorem Alike.repeated (alike : Alike like limit reading reading') :
    Alike like limit
      (fun refs cursor => reading.greedy last (limit - cursor + 1) refs cursor)
      (fun refs cursor => reading'.greedy last' (limit - cursor + 1) refs cursor) := by
  intro refs refs' cursor within before
  apply alike_greedy alike (limit - cursor + 1) refs refs' cursor within before
  intro refs refs' place within' far _
  omega

theorem thenIfMoved_alike (alike : Alike like limit first first') {refs refs' : List Backref}
    {cursor : Nat} (within : cursor ≤ limit) (before : like.refs refs refs')
    (after : ∀ refs refs' next, cursor < next → next ≤ limit → like.refs refs refs' →
      Concur like.stops (like.Outcomes limit next) (second refs next) (second' refs' next)) :
    Concur like.stops (like.Outcomes limit cursor) (first.thenIfMoved second refs cursor)
      (first'.thenIfMoved second' refs' cursor) := by
  apply (alike refs refs' cursor within before).bind
  intro _ _ related
  cases related with
  | @matched next _ _ _ _ forward bounded built kept =>
      by_cases same : next = cursor
      · simp only [if_pos same]
        exact .ok (.matched forward bounded built kept)
      · simp only [if_neg same]
        apply resume_alike forward built kept
        exact after _ _ next (Nat.lt_of_le_of_ne forward (Ne.symm same)) bounded
          (like.refs_append before kept)
  | failed offset => exact .ok (.failed offset)

theorem Alike.thenIfMoved (alike : Alike like limit first first')
    (alike' : Alike like limit second second') :
    Alike like limit (first.thenIfMoved second) (first'.thenIfMoved second') := by
  intro refs refs' cursor within before
  apply thenIfMoved_alike alike within before
  intro refs refs' next _ bounded before'
  exact alike' refs refs' next bounded before'

theorem Alike.times (alike : Alike like limit reading reading') (count : Nat) :
    Alike like limit (reading.times count) (reading'.times count) := by
  induction count with
  | zero => exact alike_succeed
  | succ count ih => exact alike.andThen ih

theorem Alike.atLeast (alike : Alike like limit reading reading')
    (alike' : Alike like limit last last') (count : Nat) :
    Alike like limit (reading.atLeast last count) (reading'.atLeast last' count) := by
  induction count with
  | zero => exact alike'
  | succ count ih => exact alike.thenIfMoved ih

theorem Alike.upTo (alike : Alike like limit reading reading') (left : Nat) :
    ∀ refs refs' cursor, cursor + left ≤ limit → like.refs refs refs' →
      Concur like.stops (like.Outcomes limit cursor) (reading.upTo left refs cursor)
        (reading'.upTo left refs' cursor) := by
  induction left with
  | zero =>
      intro refs refs' cursor within before
      apply (alike refs refs' cursor within before).bind
      intro _ _ related
      cases related with
      | matched _ _ _ _ => exact .ok (.stays within)
      | failed offset => exact .ok (.failed cursor)
  | succ left ih =>
      intro refs refs' cursor within before
      apply (alike refs refs' cursor (by omega) before).bind
      intro _ _ related
      cases related with
      | matched _ _ _ _ => exact .ok (.stays (by omega))
      | failed offset =>
          dsimp only
          rw [← bind_pure (reading.upTo left refs (cursor + 1)),
            ← bind_pure (reading'.upTo left refs' (cursor + 1))]
          apply (ih refs refs' (cursor + 1) (by omega) before).bind
          intro _ _ later
          cases later with
          | matched forward bounded built kept =>
              exact .ok (.matched (Nat.le_of_succ_le forward) bounded built kept)
          | failed offset => exact .ok (.failed offset)

theorem Alike.closeOr (alike : Alike like limit closing closing')
    (alike' : Alike like limit item item') {refs refs' : List Backref} {cursor : Nat}
    (within : cursor ≤ limit) (before : like.refs refs refs')
    (after : ∀ refs refs' next, cursor ≤ next → next ≤ limit → like.refs refs refs' →
      Concur like.stops (like.Outcomes limit next) (second refs next) (second' refs' next)) :
    Concur like.stops (like.Outcomes limit cursor) (closing.closeOr item second refs cursor)
      (closing'.closeOr item' second' refs' cursor) := by
  apply (alike refs refs' cursor within before).bind
  intro _ _ related
  cases related with
  | matched forward bounded built kept => exact .ok (.matched forward bounded built kept)
  | failed unclosed =>
      apply (alike' refs refs' cursor within before).bind
      intro _ _ related'
      cases related' with
      | @matched next _ _ _ _ forward bounded built kept =>
          exact resume_alike forward built kept
            (after _ _ next forward bounded (like.refs_append before kept))
      | failed offset => exact .ok (.failed (max unclosed offset))

theorem Alike.blockRounds (alike : Alike like limit item item')
    (alike' : Alike like limit closing closing') (rounds : Nat) :
    ∀ refs refs' cursor, cursor ≤ limit → limit - cursor < rounds → like.refs refs refs' →
      Concur like.stops (like.Outcomes limit cursor) (item.blockRounds closing rounds refs cursor)
        (item'.blockRounds closing' rounds refs' cursor) := by
  induction rounds with
  | zero =>
      intro refs refs' cursor _ enough
      exact absurd enough (Nat.not_lt_zero _)
  | succ rounds ih =>
      intro refs refs' cursor within enough before
      apply alike'.closeOr alike within before
      intro refs refs' next forward bounded before'
      by_cases same : next = cursor
      · simp only [if_pos same]
        exact .ok (.failed cursor)
      · simp only [if_neg same]
        exact ih refs refs' next bounded (by omega) before'

theorem Alike.listRounds (alike : Alike like limit item item')
    (alike' : Alike like limit separator separator') (alike'' : Alike like limit closing closing')
    (rounds : Nat) :
    ∀ refs refs' cursor, cursor ≤ limit → limit - cursor < rounds → like.refs refs refs' →
      Concur like.stops (like.Outcomes limit cursor)
        (item.listRounds separator closing rounds refs cursor)
        (item'.listRounds separator' closing' rounds refs' cursor) := by
  induction rounds with
  | zero =>
      intro refs refs' cursor _ enough
      exact absurd enough (Nat.not_lt_zero _)
  | succ rounds ih =>
      intro refs refs' cursor within enough before
      apply alike''.closeOr alike within before
      intro refs refs' afterItem forward bounded before'
      apply alike''.closeOr alike' bounded before'
      intro refs refs' next forward' bounded' before''
      by_cases same : next = cursor
      · simp only [if_pos same]
        exact .ok (.failed afterItem)
      · simp only [if_neg same]
        exact ih refs refs' next bounded' (by omega) before''

end Reading

end PegForest
