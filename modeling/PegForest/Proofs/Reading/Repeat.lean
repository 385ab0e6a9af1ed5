import PegForest.Proofs.Reading.Blind

/-!
# Repetitions

A greedy loop stops where what it repeats fails or matches nothing.  If that is read blindly, the
place is idle for good: nothing that repeats the same moves on from there, neither one more round nor
another loop.

A counted repetition is as many rounds as are demanded and then as many options as are left.  A round
that matches nothing ends the repetition at once, while its unrolling goes on; but the place is idle,
so what is left of the unrolling does not move either.  Every round but the last moves on, so as many
rounds as there are atoms left are as good as any number.
-/

set_option autoImplicit false

namespace PegForest.Reading

variable {τ : Type} {stops : Fault → Fault → Prop} {limit cursor next rounds : Nat}
  {reading loop second second' last : Reading τ} {refs stored : List Backref}
  {trees : List (MarkedTree τ)}

def star (limit : Nat) (reading : Reading τ) : Reading τ := fun refs cursor =>
  reading.greedy (.stop .exhausted) (limit - cursor + 1) refs cursor

def plus (limit : Nat) (reading : Reading τ) : Reading τ :=
  reading.thenIfMoved (reading.star limit)

/-! ## Where a loop ends -/

/-- Wherever the loop ends, what it repeats is idle. -/
def EndsIdle (limit : Nat) (reading loop : Reading τ) : Prop :=
  ∀ refs cursor next trees stored, cursor ≤ limit →
    loop refs cursor = .ok (.matched next trees stored) →
    cursor ≤ next ∧ next ≤ limit ∧ reading.Idle next

theorem Blind.moves (blind : reading.Blind stops limit) (within : cursor ≤ limit)
    (read : reading refs cursor = .ok (.matched next trees stored)) :
    cursor ≤ next ∧ next ≤ limit := by
  obtain ⟨outcome, -, related⟩ := blind.alike within read refs
  cases related with
  | matched forward bounded _ _ => exact ⟨forward, bounded⟩

theorem Blind.endsIdle_thenIfMoved (blind : reading.Blind stops limit)
    (ends : EndsIdle limit reading loop) : EndsIdle limit reading (reading.thenIfMoved loop) := by
  intro refs cursor next trees stored within ended
  cases read : reading refs cursor with
  | error fault =>
      simp only [Reading.thenIfMoved, read, Fault.error_bind] at ended
      cases ended
  | ok outcome =>
      cases outcome with
      | failed offset =>
          rw [thenIfMoved_of_failed read] at ended
          cases ended
      | matched middle front stored₁ =>
          obtain ⟨forward, bounded⟩ := blind.moves within read
          by_cases same : middle = cursor
          · subst same
            rw [thenIfMoved_of_rested read] at ended
            cases ended
            exact ⟨forward, bounded, blind.idle within read rfl⟩
          · rw [thenIfMoved_of_moved read same] at ended
            obtain ⟨back, stored₂, ended', -, -⟩ := exists_of_resume ended
            obtain ⟨forward', bounded', idle⟩ := ends _ _ _ _ _ bounded ended'
            exact ⟨Nat.le_trans forward forward', bounded', idle⟩

theorem Blind.endsIdle_greedy (blind : reading.Blind stops limit) (fault : Fault) (rounds : Nat) :
    EndsIdle limit reading (reading.greedy (.stop fault) rounds) := by
  induction rounds with
  | zero =>
      intro refs cursor next trees stored _ ended
      cases ended
  | succ rounds ih =>
      intro refs cursor next trees stored within ended
      -- A round that fails ends the loop; any other is as good as one that has to match.
      by_cases failing : ∃ offset, reading refs cursor = .ok (.failed offset)
      · obtain ⟨offset, read⟩ := failing
        rw [greedy_of_failed read] at ended
        cases ended
        exact ⟨Nat.le_refl cursor, within, blind.idle within read trivial⟩
      · rw [greedy_of_not_failed (not_exists.mp failing)] at ended
        exact blind.endsIdle_thenIfMoved ih _ _ _ _ _ within ended

theorem Blind.endsIdle_star (blind : reading.Blind stops limit) :
    EndsIdle limit reading (reading.star limit) := by
  intro refs cursor
  exact blind.endsIdle_greedy .exhausted (limit - cursor + 1) refs cursor

theorem Blind.endsIdle_plus (blind : reading.Blind stops limit) :
    EndsIdle limit reading (reading.plus limit) :=
  blind.endsIdle_thenIfMoved blind.endsIdle_star

/-! ## Numbers of rounds -/

theorem greedy_add (reading last : Reading τ) (rounds extra : Nat) :
    reading.greedy last (rounds + extra) = reading.greedy (reading.greedy last extra) rounds := by
  induction rounds with
  | zero => rw [Nat.zero_add, greedy]
  | succ rounds ih => rw [Nat.add_right_comm, greedy, ih, ← greedy]

/-- More rounds than there are atoms left are as good as the rounds of a loop without end. -/
theorem Blind.greedy_alike_star (blind : reading.Blind stops limit) (within : cursor ≤ limit)
    (enough : limit - cursor < rounds) (last : Reading τ) (refs refs' : List Backref) :
    Concur stops ((Likeness.course stops).Outcomes limit cursor)
      (reading.greedy last rounds refs cursor) (reading.star limit refs' cursor) := by
  obtain ⟨extra, rfl⟩ := Nat.exists_eq_add_of_le (Nat.succ_le_of_lt enough)
  rw [greedy_add]
  apply alike_greedy blind _ refs refs' cursor within trivial
  intro _ _ place within' far _
  omega

theorem Blind.idle_limit (blind : reading.Blind (fun _ _ => False) limit) : reading.Idle limit := by
  intro refs
  have concur := blind refs refs limit (Nat.le_refl limit) trivial
  cases read : reading refs limit with
  | error fault =>
      rw [read] at concur
      obtain ⟨_, _, impossible⟩ := concur.of_error
      exact impossible.elim
  | ok outcome =>
      refine ⟨outcome, rfl, ?_⟩
      cases outcome with
      | failed offset => trivial
      | matched next trees stored =>
          obtain ⟨forward, bounded⟩ := blind.moves (Nat.le_refl limit) read
          exact Nat.le_antisymm bounded forward

theorem Idle.greedy_stays (idle : reading.Idle cursor) (stays : last.Stays cursor) (rounds : Nat) :
    (reading.greedy last rounds).Stays cursor := by
  cases rounds with
  | zero => exact stays
  | succ rounds => exact idle.greedy last rounds

/-- As many rounds as there are atoms left lead as far as a loop without end; what is left to do is
done at the limit, where nothing moves. -/
theorem Blind.bounded_alike_star (blind : reading.Blind (fun _ _ => False) limit)
    (within : cursor ≤ limit) (enough : limit - cursor ≤ rounds) (refs refs' : List Backref) :
    Concur (fun _ _ => False) ((Likeness.course fun _ _ => False).Outcomes limit cursor)
      (reading.greedy .succeed rounds refs cursor) (reading.star limit refs' cursor) := by
  obtain ⟨extra, rfl⟩ := Nat.exists_eq_add_of_le enough
  unfold star
  rw [greedy_add, greedy_add]
  apply alike_greedy blind _ refs refs' cursor within trivial
  intro refs refs' place within' far _
  obtain rfl : place = limit := by omega
  obtain ⟨_, _, read⟩ := blind.idle_limit.greedy_stays (stays_succeed place) extra refs
  obtain ⟨_, _, read'⟩ := blind.idle_limit.greedy (.stop .exhausted) 0 refs'
  rw [read, read']
  exact .ok (.matched (Nat.le_refl place) (Nat.le_refl place) trivial trivial)

theorem Blind.bounded_alike_plus (blind : reading.Blind (fun _ _ => False) limit)
    (within : cursor ≤ limit) (enough : limit - cursor ≤ rounds + 1) (refs refs' : List Backref) :
    Concur (fun _ _ => False) ((Likeness.course fun _ _ => False).Outcomes limit cursor)
      (reading.thenIfMoved (reading.greedy .succeed rounds) refs cursor)
      (reading.plus limit refs' cursor) := by
  apply thenIfMoved_alike blind within trivial
  intro refs refs' next moved bounded _
  exact blind.bounded_alike_star bounded (by omega) refs refs'

/-! ## Loops over loops -/

/-- A loop over what comes to an idle place stops there. -/
theorem greedy_of_ended (ended : loop refs cursor = .ok (.matched next trees stored))
    (idle : loop.Idle next) (forward : cursor ≤ next) (enough : next - cursor ≤ rounds)
    (last : Reading τ) : ∃ trees' stored',
      loop.greedy last (rounds + 1) refs cursor = .ok (.matched next trees' stored') := by
  by_cases same : next = cursor
  · subst same
    exact ⟨_, _, greedy_of_rested ended⟩
  · obtain ⟨rounds, rfl⟩ : ∃ fewer, rounds = fewer + 1 := Nat.exists_eq_add_one.mpr (by omega)
    obtain ⟨_, _, rested⟩ := idle.greedy last rounds (refs ++ stored)
    exact ⟨_, _, (greedy_of_moved ended same).trans (resume_of_matched rested)⟩

theorem Idle.star (idle : reading.Idle cursor) (limit : Nat) : (reading.star limit).Stays cursor :=
  idle.greedy (.stop .exhausted) (limit - cursor)

theorem Blind.star_star (blind : reading.Blind stops limit) (within : cursor ≤ limit)
    (ended : reading.star limit refs cursor = .ok (.matched next trees stored)) :
    ∃ trees' stored',
      (reading.star limit).star limit refs cursor = .ok (.matched next trees' stored') := by
  obtain ⟨forward, bounded, idle⟩ := blind.endsIdle_star _ _ _ _ _ within ended
  exact greedy_of_ended ended (idle.star limit).idle forward (by omega) _

theorem Blind.star_plus (blind : reading.Blind stops limit) (within : cursor ≤ limit)
    (ended : reading.star limit refs cursor = .ok (.matched next trees stored)) :
    ∃ trees' stored',
      (reading.plus limit).star limit refs cursor = .ok (.matched next trees' stored') := by
  obtain ⟨forward, bounded, idle⟩ := blind.endsIdle_star _ _ _ _ _ within ended
  cases read : reading refs cursor with
  | error fault =>
      simp only [Reading.star, greedy, read, Fault.error_bind] at ended
      cases ended
  | ok outcome =>
      cases outcome with
      | failed offset =>
          rw [Reading.star, greedy_of_failed read] at ended
          cases ended
          exact ⟨_, _, greedy_of_failed (thenIfMoved_of_failed read)⟩
      | matched middle front stored₁ =>
          by_cases same : middle = cursor
          · subst same
            rw [Reading.star, greedy_of_rested read] at ended
            cases ended
            exact ⟨_, _, greedy_of_rested (thenIfMoved_of_rested read)⟩
          · obtain ⟨forward', bounded'⟩ := blind.moves within read
            rw [Reading.star, greedy_of_moved read same] at ended
            obtain ⟨back, stored₂, ended', -, -⟩ := exists_of_resume ended
            have enough : limit - middle < limit - cursor := by omega
            have concur := blind.greedy_alike_star bounded' enough (.stop .exhausted)
              (refs ++ stored₁) (refs ++ stored₁)
            rw [ended'] at concur
            obtain ⟨_, starred, related⟩ := concur.of_ok
            cases related with
            | matched _ _ _ _ =>
                have whole := (thenIfMoved_of_moved read same).trans (resume_of_matched starred)
                exact greedy_of_ended whole (idle.thenIfMoved _) forward (by omega) _

/-! ## Unrolling -/

theorem Blind.thenIfMoved_unrolled (blind : reading.Blind stops limit)
    (alike : Alike (.course stops) limit second second')
    (rests : ∀ place, reading.Stays place → second'.Stays place) :
    Alike (.course stops) limit (reading.thenIfMoved second) (reading.andThen second') := by
  intro refs refs' cursor within _
  have known : Yields (fun outcome => reading refs' cursor = .ok outcome) (reading refs' cursor) :=
    fun _ read => read
  apply ((blind refs refs' cursor within trivial).and_right known).bind
  rintro _ _ ⟨related, read⟩
  cases related with
  | @matched next _ _ _ stored' forward bounded _ _ =>
      by_cases same : next = cursor
      · subst same
        obtain ⟨_, _, rested⟩ := rests next (blind.stays within read) (refs' ++ stored')
        simp only [if_true, resume_of_matched rested]
        exact .ok (.matched forward bounded trivial trivial)
      · simp only [if_neg same]
        exact alike.resume trivial forward bounded trivial trivial
  | failed offset => exact .ok (.failed offset)

/-- Where the reading fails, the loop ends and the options rest; elsewhere the round is as good as one
that is demanded. -/
theorem Blind.greedy_unrolled (blind : reading.Blind stops limit)
    (alike : Alike (.course stops) limit (reading.greedy last rounds) second')
    (rests : ∀ place, reading.Idle place → second'.Stays place) :
    Alike (.course stops) limit (reading.greedy last (rounds + 1))
      (reading.optional.andThen second') := by
  intro refs refs' cursor within _
  by_cases failing : ∃ offset, reading refs' cursor = .ok (.failed offset)
  · obtain ⟨offset, read'⟩ := failing
    obtain ⟨outcome, read, related⟩ := blind.alike within read' refs
    obtain ⟨_, _, rested⟩ := rests cursor (blind.idle within read' trivial) (refs' ++ [])
    cases related with
    | failed _ =>
        rw [greedy_of_failed read, andThen_of_matched (optional_of_failed read'),
          resume_of_matched rested]
        exact .ok (.matched (Nat.le_refl cursor) within trivial trivial)
  · have matching : ∀ offset, reading refs cursor ≠ .ok (.failed offset) := by
      intro offset read
      obtain ⟨outcome, read', related⟩ := blind.alike within read refs'
      cases related with
      | failed _ => exact failing ⟨offset, read'⟩
    rw [greedy_of_not_failed matching, Reading.andThen,
      optional_of_not_failed (not_exists.mp failing)]
    exact blind.thenIfMoved_unrolled alike (fun place stays => rests place stays.idle) refs refs'
      cursor within trivial

/-- Demanded rounds and options one after the other. -/
def unrolled (reading : Reading τ) (least more : Nat) : Reading τ :=
  sequence (List.replicate least reading ++ List.replicate more reading.optional)

theorem Idle.unrolled_zero (idle : reading.Idle cursor) (more : Nat) :
    (reading.unrolled 0 more).Stays cursor := by
  apply Stays.sequence
  intro step member
  rw [List.eq_of_mem_replicate member]
  exact idle.optional

theorem Stays.unrolled (stays : reading.Stays cursor) (least more : Nat) :
    (reading.unrolled least more).Stays cursor := by
  apply Stays.sequence
  intro step member
  rcases List.mem_append.mp member with demanded | offered
  · rw [List.eq_of_mem_replicate demanded]
    exact stays
  · rw [List.eq_of_mem_replicate offered]
    exact stays.idle.optional

/-- A counted repetition takes the course of its unrolling. -/
theorem Blind.atLeast_unrolled (blind : reading.Blind stops limit) (least more : Nat) :
    Alike (.course stops) limit (reading.atLeast (reading.greedy .succeed more) least)
      (reading.unrolled least more) := by
  induction least with
  | zero =>
      induction more with
      | zero => exact alike_succeed
      | succ more ih => exact blind.greedy_unrolled ih fun place idle => idle.unrolled_zero more
  | succ least ih =>
      exact blind.thenIfMoved_unrolled ih fun place stays => stays.unrolled least more

theorem times_eq_unrolled (reading : Reading τ) (count : Nat) :
    reading.times count = reading.unrolled count 0 := by
  induction count with
  | zero => rfl
  | succ count ih => rw [times, ih]; rfl

end PegForest.Reading
