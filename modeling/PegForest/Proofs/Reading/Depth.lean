import PegForest.Proofs.Fault
import PegForest.Proofs.Reading.Basic

/-!
# Readings do not depend on the depth

A reading that allows deeper calls either agrees with the shallower one or answers where the
shallower one met its bound.  So all depths that give an answer give the same one, and the depth is
no part of what a matcher means.
-/

set_option autoImplicit false

namespace PegForest

namespace Reading

variable {τ : Type}

/-- One reading does what another one does, unless it meets a bound. -/
def Below (reading other : Reading τ) : Prop :=
  ∀ refs cursor, Exhausts (reading refs cursor) (other refs cursor)

theorem Below.refl (reading : Reading τ) : reading.Below reading := by
  intro refs cursor
  exact .same _

variable {reading reading' first first' second second' other other' last last' item item' separator
  separator' closing closing' : Reading τ}

theorem Below.resume (below : second.Below second') (refs stored : List Backref) (next : Nat)
    (trees : List (MarkedTree τ)) :
    Exhausts (second.resume refs next trees stored) (second'.resume refs next trees stored) := by
  refine .bind (below (refs ++ stored) next) ?_
  intro outcome
  exact .same _

theorem Below.andThen (below : first.Below first') (below' : second.Below second') :
    (first.andThen second).Below (first'.andThen second') := by
  intro refs cursor
  refine .bind (below refs cursor) ?_
  rintro (⟨next, trees, stored⟩ | offset)
  · exact below'.resume refs stored next trees
  · exact .same _

theorem Below.sequence {readings readings' : List (Reading τ)}
    (below : List.Forall₂ Below readings readings') :
    (sequence readings).Below (sequence readings') := by
  induction below with
  | nil => exact .refl _
  | cons here _ ih => exact here.andThen ih

theorem Below.sequenceOpt {readings readings' : List (Reading τ)}
    (below : List.Forall₂ Below readings readings') :
    (sequenceOpt readings).Below (sequenceOpt readings') := by
  induction below with
  | nil => exact .refl _
  | cons here _ ih =>
      intro refs cursor
      refine .bind (here refs cursor) ?_
      rintro (⟨next, trees, stored⟩ | offset)
      · exact ih.resume refs stored next trees
      · exact .same _

theorem Below.firstOf {readings readings' : List (Reading τ)}
    (below : List.Forall₂ Below readings readings') (offset : Nat) :
    (firstOf offset readings).Below (firstOf offset readings') := by
  induction below generalizing offset with
  | nil => exact .refl _
  | cons here _ ih =>
      intro refs cursor
      refine .bind (here refs cursor) ?_
      rintro (⟨next, trees, stored⟩ | furthest)
      · exact .same _
      · exact ih (max offset furthest) refs cursor

theorem Below.choice {readings readings' : List (Reading τ)}
    (below : List.Forall₂ Below readings readings') : (choice readings).Below (choice readings') := by
  intro refs cursor
  exact Below.firstOf below cursor refs cursor

theorem Below.map {change : List Backref → Nat → Outcome τ → Except Fault (Outcome τ)}
    (below : reading.Below reading') :
    Below (fun refs cursor => reading refs cursor >>= change refs cursor)
      (fun refs cursor => reading' refs cursor >>= change refs cursor) := by
  intro refs cursor
  exact .bind (below refs cursor) fun outcome => .same _

theorem Below.greedy (below : reading.Below reading') (below' : last.Below last') (rounds : Nat) :
    (reading.greedy last rounds).Below (reading'.greedy last' rounds) := by
  induction rounds with
  | zero => exact below'
  | succ rounds ih =>
      intro refs cursor
      refine .bind (below refs cursor) ?_
      rintro (⟨next, trees, stored⟩ | offset)
      · dsimp only
        split
        · exact .same _
        · exact ih.resume refs stored next trees
      · exact .same _

theorem Below.thenIfMoved (below : first.Below first') (below' : second.Below second') :
    (first.thenIfMoved second).Below (first'.thenIfMoved second') := by
  intro refs cursor
  refine .bind (below refs cursor) ?_
  rintro (⟨next, trees, stored⟩ | offset)
  · dsimp only
    split
    · exact .same _
    · exact below'.resume refs stored next trees
  · exact .same _

theorem Below.times (below : reading.Below reading') (count : Nat) :
    (reading.times count).Below (reading'.times count) := by
  induction count with
  | zero => exact .refl _
  | succ count ih => exact below.andThen ih

theorem Below.atLeast (below : reading.Below reading') (below' : other.Below other') (count : Nat) :
    (reading.atLeast other count).Below (reading'.atLeast other' count) := by
  induction count with
  | zero => exact below'
  | succ count ih => exact below.thenIfMoved ih

theorem Below.upTo (below : reading.Below reading') (left : Nat) :
    (reading.upTo left).Below (reading'.upTo left) := by
  induction left with
  | zero => exact below.map
  | succ left ih =>
      intro refs cursor
      refine .bind (below refs cursor) ?_
      rintro (⟨next, trees, stored⟩ | offset)
      · exact .same _
      · exact ih refs (cursor + 1)

theorem Below.closeOr (below : closing.Below closing') (below' : other.Below other')
    (below'' : second.Below second') :
    (closing.closeOr other second).Below (closing'.closeOr other' second') := by
  intro refs cursor
  refine .bind (below refs cursor) ?_
  rintro (⟨next, trees, stored⟩ | unclosed)
  · exact .same _
  · refine .bind (below' refs cursor) ?_
    rintro (⟨next, trees, stored⟩ | offset)
    · exact below''.resume refs stored next trees
    · exact .same _

theorem Below.blockRounds (below : item.Below item') (below' : closing.Below closing')
    (rounds : Nat) : (item.blockRounds closing rounds).Below (item'.blockRounds closing' rounds) := by
  induction rounds with
  | zero => exact .refl _
  | succ rounds ih =>
      intro refs cursor
      refine below'.closeOr below ?_ refs cursor
      intro refs next
      dsimp only
      split
      · exact .same _
      · exact ih refs next

theorem Below.listRounds (below : item.Below item') (below' : separator.Below separator')
    (below'' : closing.Below closing') (rounds : Nat) :
    (item.listRounds separator closing rounds).Below (item'.listRounds separator' closing' rounds) := by
  induction rounds with
  | zero => exact .refl _
  | succ rounds ih =>
      intro refs cursor
      refine below''.closeOr below ?_ refs cursor
      intro refs afterItem
      refine below''.closeOr below' ?_ refs afterItem
      intro refs next
      dsimp only
      split
      · exact .same _
      · exact ih refs next

end Reading

variable {α τ ρ : Type} [Atom α] {order : Comparator α} {window : Window α}

mutual

theorem Matcher.reading_below {call call' : ρ → Reading τ}
    (calls : ∀ rule, (call rule).Below (call' rule)) :
    ∀ matcher : Matcher α τ ρ,
      (matcher.reading order window call).Below (matcher.reading order window call')
  | .one _ => .refl _
  | .literal _ => .refl _
  | .endOfInput => .refl _
  | .seq steps => .sequence (Matcher.readings_below calls steps)
  | .seqOpt steps => .sequenceOpt (Matcher.readings_below calls steps)
  | .choice alternatives => .choice (Matcher.readings_below calls alternatives)
  | .nonEmpty inner => (Matcher.reading_below calls inner).map
  | .star inner => fun refs cursor =>
      (Matcher.reading_below calls inner).greedy (.refl _) _ refs cursor
  | .plus inner =>
      (Matcher.reading_below calls inner).thenIfMoved fun refs cursor =>
        (Matcher.reading_below calls inner).greedy (.refl _) _ refs cursor
  | .opt inner => (Matcher.reading_below calls inner).map
  | .times count inner => (Matcher.reading_below calls inner).times count
  | .timesBetween least most inner =>
      (Matcher.reading_below calls inner).atLeast
        ((Matcher.reading_below calls inner).greedy (.refl _) (most - least)) least
  | .ahead inner => (Matcher.reading_below calls inner).map
  | .notAhead inner => (Matcher.reading_below calls inner).map
  | .upTo inner => fun refs cursor => (Matcher.reading_below calls inner).upTo _ refs cursor
  | .block opening item closing =>
      (Matcher.reading_below calls opening).andThen fun refs cursor =>
        (Matcher.reading_below calls item).blockRounds (Matcher.reading_below calls closing) _ refs
          cursor
  | .list opening item separator closing =>
      (Matcher.reading_below calls opening).andThen fun refs cursor =>
        (Matcher.reading_below calls item).listRounds (Matcher.reading_below calls separator)
          (Matcher.reading_below calls closing) _ refs cursor
  | .store _ inner => (Matcher.reading_below calls inner).map
  | .backref _ => .refl _
  | .node _ _ inner => (Matcher.reading_below calls inner).map
  | .promote inner => (Matcher.reading_below calls inner).map
  | .rule name => calls name
  | .skip _ => .refl _
  | .failAt _ => .refl _

theorem Matcher.readings_below {call call' : ρ → Reading τ}
    (calls : ∀ rule, (call rule).Below (call' rule)) :
    ∀ matchers : List (Matcher α τ ρ),
      List.Forall₂ Reading.Below (Matcher.readings order window call matchers)
        (Matcher.readings order window call' matchers)
  | [] => .nil
  | matcher :: rest => .cons (Matcher.reading_below calls matcher) (Matcher.readings_below calls rest)

end

theorem Grammar.callReading_below (grammar : Grammar α τ ρ) {depth deeper : Nat}
    (deep : depth ≤ deeper) (rule : ρ) :
    (grammar.callReading order window depth rule).Below
      (grammar.callReading order window deeper rule) := by
  induction depth generalizing deeper rule with
  | zero =>
      intro refs cursor
      exact .inl rfl
  | succ depth ih =>
      obtain ⟨deeper, rfl⟩ : ∃ n, deeper = n + 1 := ⟨deeper - 1, by omega⟩
      exact Matcher.reading_below (fun rule => ih (by omega) rule) (grammar rule)

/-- An answer at one depth is the answer at every greater depth. -/
theorem Grammar.reading_eq_of_le (grammar : Grammar α τ ρ) {depth deeper : Nat}
    (deep : depth ≤ deeper) {matcher : Matcher α τ ρ} {refs : List Backref} {cursor : Nat}
    {outcome : Outcome τ}
    (answer : grammar.reading order depth window matcher refs cursor = .ok outcome) :
    grammar.reading order deeper window matcher refs cursor = .ok outcome :=
  (Matcher.reading_below (fun rule => grammar.callReading_below deep rule) matcher refs cursor).eq_of_ok
    answer

end PegForest
