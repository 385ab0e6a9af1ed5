import PegForest.Proofs.Fault
import PegForest.Proofs.Forest.Cover
import PegForest.Proofs.Reading.Basic

/-!
# Readings move forward

A match never moves the cursor back and never moves it beyond the limit, and the trees that it
builds lie in the range that it consumes.  Each combinator keeps this property, so every reading of
a matcher has it.
-/

set_option autoImplicit false

namespace PegForest

open MarkedTree

/-- What a match from `cursor` to `next` may do. -/
structure Advance {τ : Type} (limit cursor next : Nat) (trees : List (MarkedTree τ)) : Prop where
  forward : cursor ≤ next
  bounded : cursor ≤ limit → next ≤ limit
  covers : Covers cursor next trees

namespace Advance

variable {τ : Type} {limit cursor mid next : Nat} {front back : List (MarkedTree τ)}

theorem stay (limit cursor : Nat) : Advance limit cursor cursor ([] : List (MarkedTree τ)) :=
  ⟨Nat.le_refl cursor, id, .nil cursor cursor⟩

theorem one (below : cursor < limit) :
    Advance limit cursor (cursor + 1) ([] : List (MarkedTree τ)) :=
  ⟨Nat.le_succ cursor, fun _ => below, .nil cursor (cursor + 1)⟩

theorem trans (first : Advance limit cursor mid front) (second : Advance limit mid next back) :
    Advance limit cursor next (front ++ back) :=
  ⟨Nat.le_trans first.forward second.forward, fun start => second.bounded (first.bounded start),
    first.covers.append second.covers first.forward second.forward⟩

end Advance

/-- A match that is reported has moved forward. -/
def Outcome.Advances {τ : Type} (limit cursor : Nat) : Outcome τ → Prop
  | .matched next trees _ => Advance limit cursor next trees
  | .failed _ => True

theorem Outcome.Advances.after {τ : Type} {limit cursor next : Nat} {trees : List (MarkedTree τ)}
    {outcome : Outcome τ} (first : Advance limit cursor next trees)
    (second : outcome.Advances limit next) (stored : List Backref) :
    (outcome.after trees stored).Advances limit cursor := by
  cases outcome with
  | matched _ _ _ => exact first.trans second
  | failed _ => trivial

namespace Reading

variable {τ : Type} {limit : Nat}

def Advances (limit : Nat) (reading : Reading τ) : Prop :=
  ∀ refs cursor, Yields (Outcome.Advances limit cursor) (reading refs cursor)

theorem advances_succeed : (succeed : Reading τ).Advances limit := by
  intro refs cursor
  exact .ok (.stay limit cursor)

theorem advances_stop (fault : Fault) : (stop fault : Reading τ).Advances limit := by
  intro refs cursor
  exact .error fault

variable {reading first second other last item separator closing : Reading τ}

theorem Advances.resume (advances : second.Advances limit) {refs stored : List Backref}
    {cursor next : Nat} {trees : List (MarkedTree τ)} (moved : Advance limit cursor next trees) :
    Yields (Outcome.Advances limit cursor) (second.resume refs next trees stored) := by
  refine .bind (advances (refs ++ stored) next) ?_
  intro outcome reached
  exact .ok (.after moved reached stored)

theorem Advances.andThen (advances : first.Advances limit) (advances' : second.Advances limit) :
    (first.andThen second).Advances limit := by
  intro refs cursor
  refine .bind (advances refs cursor) ?_
  rintro (⟨next, trees, stored⟩ | offset) reached
  · exact advances'.resume reached
  · exact .ok trivial

theorem Advances.sequence {readings : List (Reading τ)}
    (advances : ∀ reading ∈ readings, reading.Advances limit) :
    (sequence readings).Advances limit := by
  induction readings with
  | nil => exact advances_succeed
  | cons reading rest ih =>
      rw [List.forall_mem_cons] at advances
      exact advances.1.andThen (ih advances.2)

theorem Advances.sequenceOpt {readings : List (Reading τ)}
    (advances : ∀ reading ∈ readings, reading.Advances limit) :
    (sequenceOpt readings).Advances limit := by
  induction readings with
  | nil => exact advances_succeed
  | cons reading rest ih =>
      intro refs cursor
      refine .bind (advances reading (by simp) refs cursor) ?_
      rintro (⟨next, trees, stored⟩ | offset) reached
      · exact (ih fun other member => advances other (by simp [member])).resume reached
      · exact .ok (.stay limit cursor)

theorem Advances.firstOf {readings : List (Reading τ)}
    (advances : ∀ reading ∈ readings, reading.Advances limit) (offset : Nat) :
    (firstOf offset readings).Advances limit := by
  induction readings generalizing offset with
  | nil =>
      intro refs cursor
      exact .ok trivial
  | cons reading rest ih =>
      intro refs cursor
      refine .bind (advances reading (by simp) refs cursor) ?_
      rintro (⟨next, trees, stored⟩ | furthest) reached
      · exact .ok reached
      · exact ih (fun other member => advances other (by simp [member])) (max offset furthest) refs
          cursor

theorem Advances.choice {readings : List (Reading τ)}
    (advances : ∀ reading ∈ readings, reading.Advances limit) : (choice readings).Advances limit := by
  intro refs cursor
  exact Advances.firstOf advances cursor refs cursor

theorem Advances.nonEmpty (advances : reading.Advances limit) : reading.nonEmpty.Advances limit := by
  intro refs cursor
  refine .bind (advances refs cursor) ?_
  rintro (⟨next, trees, stored⟩ | offset) reached
  · dsimp only
    split
    · exact .ok trivial
    · exact .ok reached
  · exact .ok trivial

theorem Advances.optional (advances : reading.Advances limit) : reading.optional.Advances limit := by
  intro refs cursor
  refine .bind (advances refs cursor) ?_
  rintro (⟨next, trees, stored⟩ | offset) reached
  · exact .ok reached
  · exact .ok (.stay limit cursor)

theorem advances_ahead : reading.ahead.Advances limit := by
  intro refs cursor
  refine .bind_any ?_
  rintro (⟨next, trees, stored⟩ | offset)
  · exact .ok (.stay limit cursor)
  · exact .ok trivial

theorem advances_notAhead : reading.notAhead.Advances limit := by
  intro refs cursor
  refine .bind_any ?_
  rintro (⟨next, trees, stored⟩ | offset)
  · exact .ok trivial
  · exact .ok (.stay limit cursor)

theorem Advances.store (advances : reading.Advances limit) (name : String) :
    (reading.store name).Advances limit := by
  intro refs cursor
  refine .bind (advances refs cursor) ?_
  rintro (⟨next, trees, stored⟩ | offset) reached
  · exact .ok reached
  · exact .ok trivial

theorem Advances.building (advances : reading.Advances limit)
    {change : Nat → Nat → List (MarkedTree τ) → List (MarkedTree τ)}
    (covers : ∀ start stop trees, start ≤ stop → Covers start stop trees →
      Covers start stop (change start stop trees)) :
    (reading.building change).Advances limit := by
  intro refs cursor
  refine .bind (advances refs cursor) ?_
  rintro (⟨next, trees, stored⟩ | offset) reached
  · obtain ⟨forward, bounded, covered⟩ := reached
    exact .ok ⟨forward, bounded, covers cursor next trees forward covered⟩
  · exact .ok trivial

theorem Advances.node (advances : reading.Advances limit) (tag : Option τ) (bookmark : Bool) :
    (reading.node tag bookmark).Advances limit :=
  advances.building fun _ _ _ forward covers => covers.close forward tag bookmark

theorem Advances.promote (advances : reading.Advances limit) : reading.promote.Advances limit :=
  advances.building fun _ _ _ _ covers => covers.promoteAll

/-! ## Loops -/

theorem Advances.greedy (advances : reading.Advances limit) (advances' : last.Advances limit)
    (rounds : Nat) : (reading.greedy last rounds).Advances limit := by
  induction rounds with
  | zero => exact advances'
  | succ rounds ih =>
      intro refs cursor
      refine .bind (advances refs cursor) ?_
      rintro (⟨next, trees, stored⟩ | offset) reached
      · dsimp only
        split
        · exact .ok reached
        · exact ih.resume reached
      · exact .ok (.stay limit cursor)

theorem Advances.thenIfMoved (advances : first.Advances limit) (advances' : second.Advances limit) :
    (first.thenIfMoved second).Advances limit := by
  intro refs cursor
  refine .bind (advances refs cursor) ?_
  rintro (⟨next, trees, stored⟩ | offset) reached
  · dsimp only
    split
    · exact .ok reached
    · exact advances'.resume reached
  · exact .ok trivial

theorem Advances.times (advances : reading.Advances limit) (count : Nat) :
    (reading.times count).Advances limit := by
  induction count with
  | zero => exact advances_succeed
  | succ count ih => exact advances.andThen ih

theorem Advances.atLeast (advances : reading.Advances limit) (advances' : other.Advances limit)
    (count : Nat) : (reading.atLeast other count).Advances limit := by
  induction count with
  | zero => exact advances'
  | succ count ih => exact advances.thenIfMoved ih

theorem yields_upTo (reading : Reading τ) (left : Nat) (refs : List Backref) (cursor : Nat) :
    Yields (fun outcome => ∀ next trees stored, outcome = .matched next trees stored →
      cursor ≤ next ∧ next ≤ cursor + left ∧ trees = []) (reading.upTo left refs cursor) := by
  induction left generalizing cursor with
  | zero =>
      refine .bind_any ?_
      rintro (⟨next, trees, stored⟩ | offset)
      · refine .ok ?_
        rintro _ _ _ ⟨⟩
        exact ⟨Nat.le_refl cursor, Nat.le_refl cursor, rfl⟩
      · exact .ok (by rintro _ _ _ ⟨⟩)
  | succ left ih =>
      refine .bind_any ?_
      rintro (⟨next, trees, stored⟩ | offset)
      · refine .ok ?_
        rintro _ _ _ ⟨⟩
        exact ⟨Nat.le_refl cursor, Nat.le_add_right cursor (left + 1), rfl⟩
      · intro outcome same next trees stored reached
        obtain ⟨later, sooner, none⟩ := ih (cursor + 1) outcome same next trees stored reached
        exact ⟨by omega, by omega, none⟩

theorem Advances.closeOr (advances : closing.Advances limit) (advances' : other.Advances limit)
    (advances'' : second.Advances limit) : (closing.closeOr other second).Advances limit := by
  intro refs cursor
  refine .bind (advances refs cursor) ?_
  rintro (⟨next, trees, stored⟩ | unclosed) reached
  · exact .ok reached
  · refine .bind (advances' refs cursor) ?_
    rintro (⟨next, trees, stored⟩ | offset) reached'
    · exact advances''.resume reached'
    · exact .ok trivial

theorem Advances.blockRounds (advances : item.Advances limit) (advances' : closing.Advances limit)
    (rounds : Nat) : (item.blockRounds closing rounds).Advances limit := by
  induction rounds with
  | zero => exact advances_stop .exhausted
  | succ rounds ih =>
      intro refs cursor
      refine Advances.closeOr advances' advances ?_ refs cursor
      intro refs next
      dsimp only
      split
      · exact .ok trivial
      · exact ih refs next

theorem Advances.listRounds (advances : item.Advances limit) (advances' : separator.Advances limit)
    (advances'' : closing.Advances limit) (rounds : Nat) :
    (item.listRounds separator closing rounds).Advances limit := by
  induction rounds with
  | zero => exact advances_stop .exhausted
  | succ rounds ih =>
      intro refs cursor
      refine Advances.closeOr advances'' advances ?_ refs cursor
      intro refs afterItem
      refine Advances.closeOr advances'' advances' ?_ refs afterItem
      intro refs next
      dsimp only
      split
      · exact .ok trivial
      · exact ih refs next

/-! ## Atoms -/

section Atoms

variable {α : Type} {window : Window α}

theorem lt_limit_of_peek {cursor : Nat} {a : α} (found : window.peek? cursor = some a) :
    cursor < window.limit := by
  unfold Window.peek? at found
  split at found
  · assumption
  · cases found

theorem advances_one (test : α → Except Fault Bool) :
    (one window test : Reading τ).Advances window.limit := by
  intro refs cursor
  unfold one
  split
  · exact .ok trivial
  · next a found =>
      refine .bind_any ?_
      rintro (_ | _)
      · exact .ok trivial
      · exact .ok (.one (lt_limit_of_peek found))

theorem advances_literal (order : Comparator α) (atoms : List α) :
    (literal order window atoms : Reading τ).Advances window.limit := by
  induction atoms with
  | nil => exact advances_succeed
  | cons expected rest ih =>
      intro refs cursor
      unfold literal
      split
      · exact .ok trivial
      · next a found =>
          split
          · intro outcome same
            have later := ih refs (cursor + 1) outcome same
            cases outcome with
            | matched next trees stored => exact (Advance.one (lt_limit_of_peek found)).trans later
            | failed _ => trivial
          · exact .ok trivial

theorem advances_endOfInput : (endOfInput window : Reading τ).Advances window.limit := by
  intro refs cursor
  refine .ok ?_
  split
  · exact .stay window.limit cursor
  · trivial

theorem advances_backref (order : Comparator α) (name : String) :
    (backref order window name : Reading τ).Advances window.limit := by
  intro refs cursor
  unfold backref
  split
  · exact .error _
  · refine .bind_any ?_
    intro atoms
    exact advances_literal order atoms.toList refs cursor

theorem advances_skip (count : Nat) : (skip window count : Reading τ).Advances window.limit := by
  intro refs cursor
  unfold skip
  split
  · next enough =>
      refine .ok ⟨Nat.le_add_right cursor count, ?_, .nil cursor (cursor + count)⟩
      unfold Window.left at enough
      omega
  · exact .error _

theorem advances_failAt (offset : Nat) : (failAt window offset : Reading τ).Advances window.limit := by
  intro refs cursor
  unfold failAt
  split
  · exact .ok trivial
  · exact .error _

theorem Advances.upTo (reading : Reading τ) :
    Advances window.limit fun refs cursor => reading.upTo (window.left cursor) refs cursor := by
  intro refs cursor outcome same
  cases outcome with
  | failed _ => trivial
  | matched next trees stored =>
      obtain ⟨later, sooner, rfl⟩ :=
        yields_upTo reading (window.left cursor) refs cursor _ same next trees stored rfl
      refine ⟨later, ?_, .nil cursor next⟩
      unfold Window.left at sooner
      omega

end Atoms

end Reading

/-! ## Matchers -/

variable {α τ ρ : Type} [Atom α] {order : Comparator α} {window : Window α}

mutual

theorem Matcher.advances {call : ρ → Reading τ} (calls : ∀ rule, (call rule).Advances window.limit) :
    ∀ matcher : Matcher α τ ρ, (matcher.reading order window call).Advances window.limit
  | .one kind => Reading.advances_one (kind.test order)
  | .literal atoms => Reading.advances_literal order atoms
  | .endOfInput => Reading.advances_endOfInput
  | .seq steps => .sequence (Matcher.advances_all calls steps)
  | .seqOpt steps => .sequenceOpt (Matcher.advances_all calls steps)
  | .choice alternatives => .choice (Matcher.advances_all calls alternatives)
  | .nonEmpty inner => (Matcher.advances calls inner).nonEmpty
  | .star inner => fun refs cursor =>
      (Matcher.advances calls inner).greedy (Reading.advances_stop _) _ refs cursor
  | .plus inner =>
      (Matcher.advances calls inner).thenIfMoved fun refs cursor =>
        (Matcher.advances calls inner).greedy (Reading.advances_stop _) _ refs cursor
  | .opt inner => (Matcher.advances calls inner).optional
  | .times count inner => (Matcher.advances calls inner).times count
  | .timesBetween least most inner =>
      (Matcher.advances calls inner).atLeast
        ((Matcher.advances calls inner).greedy Reading.advances_succeed (most - least)) least
  | .ahead _ => Reading.advances_ahead
  | .notAhead _ => Reading.advances_notAhead
  | .upTo inner => .upTo (inner.reading order window call)
  | .block opening item closing =>
      (Matcher.advances calls opening).andThen fun refs cursor =>
        (Matcher.advances calls item).blockRounds (Matcher.advances calls closing) _ refs cursor
  | .list opening item separator closing =>
      (Matcher.advances calls opening).andThen fun refs cursor =>
        (Matcher.advances calls item).listRounds (Matcher.advances calls separator)
          (Matcher.advances calls closing) _ refs cursor
  | .store name inner => (Matcher.advances calls inner).store name
  | .backref name => Reading.advances_backref order name
  | .node tag bookmark inner => (Matcher.advances calls inner).node tag bookmark
  | .promote inner => (Matcher.advances calls inner).promote
  | .rule name => calls name
  | .skip count => Reading.advances_skip count
  | .failAt offset => Reading.advances_failAt offset

theorem Matcher.advances_all {call : ρ → Reading τ}
    (calls : ∀ rule, (call rule).Advances window.limit) :
    ∀ matchers : List (Matcher α τ ρ), ∀ reading ∈ Matcher.readings order window call matchers,
      reading.Advances window.limit
  | [], _, member => nomatch member
  | matcher :: rest, reading, member => by
      rcases List.mem_cons.mp member with rfl | later
      · exact Matcher.advances calls matcher
      · exact Matcher.advances_all calls rest reading later

end

theorem Grammar.advances_call (grammar : Grammar α τ ρ) (depth : Nat) (rule : ρ) :
    (grammar.callReading order window depth rule).Advances window.limit := by
  induction depth generalizing rule with
  | zero => exact Reading.advances_stop .exhausted
  | succ depth ih => exact Matcher.advances ih (grammar rule)

end PegForest
