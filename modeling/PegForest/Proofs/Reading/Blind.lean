import PegForest.Proofs.Reading.Erase

/-!
# Readings that are blind to the store

A matcher that asks for no backreference may store some, but what it matches does not depend on any:
its reading takes the same course from every store, from each place to the same place or to a failure
at the same offset.  So what is known of such a reading at a place from one store is known there from
every store.

A place is idle when the reading fails there or matches nothing.  Whatever repeats the reading rests
at an idle place.
-/

set_option autoImplicit false

namespace PegForest

variable {α τ ρ : Type}

def Matcher.recalls : Matcher α τ ρ → Bool
  | .backref _ => true
  | _ => false

namespace Likeness

/-- Only the places count, and not what was built or stored. -/
def course (stops : Fault → Fault → Prop) : Likeness τ τ where
  refs := fun _ _ => True
  trees := fun _ _ => True
  stops := stops
  refs_nil := trivial
  refs_append := fun _ _ => trivial
  trees_nil := trivial
  trees_append := fun _ _ => trivial

theorem forgets_course (stops : Fault → Fault → Prop) :
    (course stops : Likeness τ τ).Forgets :=
  ⟨fun _ _ => trivial, fun _ => trivial⟩

theorem suits_course [Atom α] {order : Comparator α} {window : Window α} {matcher : Matcher α τ ρ}
    (free : matcher.recalls = false) :
    (course Eq : Likeness τ τ).Suits order window (fun _ => True) matcher := by
  cases matcher with
  | one _ => exact fun _ _ _ => rfl
  | skip _ => exact fun _ => rfl
  | failAt _ => exact fun _ => rfl
  | backref _ => cases free
  | _ => trivial

variable {stops stops' stops'' : Fault → Fault → Prop} {limit cursor : Nat}
  {first second third : Outcome τ}

theorem Outcomes.course_symm (related : (course stops).Outcomes limit cursor first second) :
    (course stops).Outcomes limit cursor second first := by
  cases related with
  | matched forward bounded _ _ => exact .matched forward bounded trivial trivial
  | failed offset => exact .failed offset

theorem Outcomes.course_trans (here : (course stops).Outcomes limit cursor first second)
    (there : (course stops').Outcomes limit cursor second third) :
    (course stops'').Outcomes limit cursor first third := by
  cases here with
  | matched forward bounded _ _ =>
      cases there with
      | matched _ _ _ _ => exact .matched forward bounded trivial trivial
  | failed offset =>
      cases there with
      | failed _ => exact .failed offset

end Likeness

def Outcome.Rests (cursor : Nat) : Outcome τ → Prop
  | .matched next _ _ => next = cursor
  | .failed _ => True

namespace Reading

/-- The reading takes the same course from every store, up to the faults that it stops with. -/
def Blind (stops : Fault → Fault → Prop) (limit : Nat) (reading : Reading τ) : Prop :=
  Alike (.course stops) limit reading reading

/-- At the place the reading fails or matches nothing. -/
def Idle (reading : Reading τ) (cursor : Nat) : Prop :=
  ∀ refs, ∃ outcome, reading refs cursor = .ok outcome ∧ outcome.Rests cursor

def Stays (reading : Reading τ) (cursor : Nat) : Prop :=
  ∀ refs, ∃ trees stored, reading refs cursor = .ok (.matched cursor trees stored)

variable {stops : Fault → Fault → Prop} {limit cursor next : Nat}
  {reading first second last : Reading τ} {refs stored : List Backref}
  {trees : List (MarkedTree τ)} {outcome : Outcome τ}

/-! ## What is known from one store -/

theorem Blind.alike (blind : reading.Blind stops limit) (within : cursor ≤ limit)
    (read : reading refs cursor = .ok outcome) (refs' : List Backref) :
    ∃ outcome', reading refs' cursor = .ok outcome' ∧
      (Likeness.course stops).Outcomes limit cursor outcome outcome' := by
  have concur := blind refs refs' cursor within trivial
  rw [read] at concur
  exact concur.of_ok

theorem Blind.idle (blind : reading.Blind stops limit) (within : cursor ≤ limit)
    (read : reading refs cursor = .ok outcome) (rests : outcome.Rests cursor) :
    reading.Idle cursor := by
  intro refs'
  obtain ⟨outcome', read', related⟩ := blind.alike within read refs'
  cases related with
  | matched _ _ _ _ => exact ⟨_, read', rests⟩
  | failed _ => exact ⟨_, read', trivial⟩

theorem Blind.stays (blind : reading.Blind stops limit) (within : cursor ≤ limit)
    (read : reading refs cursor = .ok (.matched cursor trees stored)) : reading.Stays cursor := by
  intro refs'
  obtain ⟨outcome', read', related⟩ := blind.alike within read refs'
  cases related with
  | matched _ _ _ _ => exact ⟨_, _, read'⟩

theorem Blind.never_stops (blind : reading.Blind Eq limit)
    (returns : ∀ place ≤ limit, ∃ outcome, reading refs place = .ok outcome) :
    reading.Blind (fun _ _ => False) limit := by
  intro refs₁ refs₂ place within _
  obtain ⟨outcome, read⟩ := returns place within
  obtain ⟨outcome₁, read₁, related₁⟩ := blind.alike within read refs₁
  obtain ⟨outcome₂, read₂, related₂⟩ := blind.alike within read refs₂
  rw [read₁, read₂]
  exact .ok (related₁.course_symm.course_trans related₂)

/-! ## Resting -/

theorem Stays.idle (stays : reading.Stays cursor) : reading.Idle cursor := by
  intro refs
  obtain ⟨trees, stored, read⟩ := stays refs
  exact ⟨_, read, rfl⟩

theorem stays_succeed (cursor : Nat) : (succeed : Reading τ).Stays cursor :=
  fun _ => ⟨[], [], rfl⟩

theorem Stays.andThen (stays : first.Stays cursor) (stays' : second.Stays cursor) :
    (first.andThen second).Stays cursor := by
  intro refs
  obtain ⟨trees, stored, read⟩ := stays refs
  obtain ⟨trees', stored', read'⟩ := stays' (refs ++ stored)
  exact ⟨_, _, (andThen_of_matched read).trans (resume_of_matched read')⟩

theorem Stays.sequence {readings : List (Reading τ)}
    (stays : ∀ reading ∈ readings, reading.Stays cursor) : (sequence readings).Stays cursor := by
  induction readings with
  | nil => exact stays_succeed cursor
  | cons reading rest ih =>
      rw [List.forall_mem_cons] at stays
      exact stays.1.andThen (ih stays.2)

theorem Idle.optional (idle : reading.Idle cursor) : reading.optional.Stays cursor := by
  intro refs
  obtain ⟨⟨next, trees, stored⟩ | offset, read, rests⟩ := idle refs
  · cases rests
    exact ⟨_, _, optional_of_matched read⟩
  · exact ⟨_, _, optional_of_failed read⟩

/-- A loop over an idle place has one round at most. -/
theorem Idle.greedy (idle : reading.Idle cursor) (last : Reading τ) (rounds : Nat) :
    (reading.greedy last (rounds + 1)).Stays cursor := by
  intro refs
  obtain ⟨⟨next, trees, stored⟩ | offset, read, rests⟩ := idle refs
  · cases rests
    exact ⟨_, _, greedy_of_rested read⟩
  · exact ⟨_, _, greedy_of_failed read⟩

theorem Idle.thenIfMoved (idle : first.Idle cursor) (second : Reading τ) :
    (first.thenIfMoved second).Idle cursor := by
  intro refs
  obtain ⟨⟨next, trees, stored⟩ | offset, read, rests⟩ := idle refs
  · cases rests
    exact ⟨_, thenIfMoved_of_rested read, rfl⟩
  · exact ⟨_, thenIfMoved_of_failed read, trivial⟩

/-- What follows a match rests where that ends, if the place is idle. -/
theorem Idle.andThen (idle : second.Idle next)
    (read : first refs cursor = .ok (.matched next trees stored)) :
    ∃ outcome, (first.andThen second) refs cursor = .ok outcome ∧ outcome.Rests next := by
  rw [andThen_of_matched read]
  obtain ⟨⟨next', trees', stored'⟩ | offset, read', rests⟩ := idle (refs ++ stored)
  · exact ⟨_, resume_of_matched read', rests⟩
  · exact ⟨_, resume_of_failed read' trees, trivial⟩

end Reading

/-- A matcher that uses no backreference is read blindly. -/
theorem Grammar.reading_blind [Atom α] {grammar : Grammar α τ ρ} {matcher : Matcher α τ ρ}
    (free : ∀ inner, grammar.Uses matcher inner → inner.recalls = false) (order : Comparator α)
    (depth : Nat) (window : Window α) :
    (grammar.reading order depth window matcher).Blind Eq window.limit := by
  have erased : Reading.Alike (.course Eq) window.limit (grammar.reading order depth window matcher)
      (grammar.erase.reading order depth window matcher.erase) :=
    (Likeness.forgets_course Eq).grammar_alike rfl depth matcher fun inner uses =>
      Likeness.suits_course (free inner uses)
  intro refs refs' cursor within _
  apply (erased refs refs' cursor within trivial).trans
    (erased refs' refs' cursor within trivial).symm
  · rintro fault _ _ rfl rfl
    rfl
  · exact fun _ _ _ here there => here.course_trans there.course_symm

end PegForest
