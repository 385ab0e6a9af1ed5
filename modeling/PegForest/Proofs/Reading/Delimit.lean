import PegForest.Proofs.Reading.Basic

/-!
# Items between brackets

A block and a list ask for the closing bracket first, before every item and before every separator.
The documented grammar asks for it last: it repeats what it can, takes one more separator, and then
wants the bracket.  Where the bracket and the item, or the bracket and the separator, never match at
one place, the order makes no difference: each question that one of the two asks decides the other.
-/

set_option autoImplicit false

namespace PegForest

variable {τ : Type}

inductive Outcome.SameMatch : Outcome τ → Outcome τ → Prop where
  | matched (next : Nat) (trees : List (MarkedTree τ)) (stored : List Backref) :
      SameMatch (.matched next trees stored) (.matched next trees stored)
  | failed (offset offset' : Nat) : SameMatch (.failed offset) (.failed offset')

theorem Outcome.SameMatch.refl (outcome : Outcome τ) : outcome.SameMatch outcome := by
  cases outcome with
  | matched next trees stored => exact .matched next trees stored
  | failed offset => exact .failed offset offset

namespace Reading

def MatchAlike (first second : Except Fault (Outcome τ)) : Prop :=
  ∃ outcome outcome', first = .ok outcome ∧ second = .ok outcome' ∧ outcome.SameMatch outcome'

/-- A part and the closing bracket at one place: they do not both match, and where the part matches,
something holds of what it leads to. -/
inductive Apart (part closing : Reading τ) (refs : List Backref) (cursor : Nat)
    (leads : Nat → List Backref → Prop) : Prop where
  | refused {offset : Nat} {outcome : Outcome τ} (failed : part refs cursor = .ok (.failed offset))
      (closed : closing refs cursor = .ok outcome)
  | taken {unclosed next : Nat} {trees : List (MarkedTree τ)} {stored : List Backref}
      (notYet : closing refs cursor = .ok (.failed unclosed))
      (found : part refs cursor = .ok (.matched next trees stored)) (leads : leads next stored)

variable {first second third part closing other after last : Reading τ} {refs stored : List Backref}
  {cursor next : Nat} {trees : List (MarkedTree τ)}

/-! ## One after the other -/

theorem MatchAlike.resume
    (alike : MatchAlike (first (refs ++ stored) next) (second (refs ++ stored) next))
    (trees : List (MarkedTree τ)) :
    MatchAlike (first.resume refs next trees stored) (second.resume refs next trees stored) := by
  obtain ⟨outcome, outcome', found, found', same⟩ := alike
  refine ⟨outcome.after trees stored, outcome'.after trees stored, ?_, ?_, ?_⟩
  · simp only [Reading.resume, found, Fault.ok_bind, Fault.pure_eq_ok]
  · simp only [Reading.resume, found', Fault.ok_bind, Fault.pure_eq_ok]
  · cases same with
    | matched next' trees' stored' => exact .matched next' (trees ++ trees') (stored ++ stored')
    | failed offset offset' => exact .failed offset offset'

theorem resume_of_resume {next' : Nat} {trees' : List (MarkedTree τ)} {stored' : List Backref}
    (found : second (refs ++ stored) next = third.resume (refs ++ stored) next' trees' stored') :
    second.resume refs next trees stored =
      third.resume refs next' (trees ++ trees') (stored ++ stored') := by
  rw [← after_resume, ← found]
  rfl

theorem andThen_of_resume
    (found : first refs cursor = second.resume refs next trees stored) :
    (first.andThen third) refs cursor = (second.andThen third).resume refs next trees stored := by
  unfold Reading.resume at found
  cases goesOn : second (refs ++ stored) next with
  | error fault =>
      rw [goesOn] at found
      simp only [andThen, Reading.resume, found, goesOn, Fault.error_bind]
  | ok outcome =>
      rw [goesOn] at found
      cases outcome with
      | failed offset =>
          rw [andThen_of_failed found, resume_of_failed (andThen_of_failed goesOn)]
      | matched next' trees' stored' =>
          rw [andThen_of_matched found, ← after_resume, ← andThen_of_matched goesOn]
          rfl

theorem closeOr_of_refused {offset : Nat} {outcome : Outcome τ}
    (failed : other refs cursor = .ok (.failed offset))
    (closed : closing refs cursor = .ok outcome) :
    MatchAlike (closing.closeOr other after refs cursor) (closing refs cursor) := by
  cases outcome with
  | matched next trees stored =>
      exact ⟨_, _, closeOr_of_closed closed, closed, .matched next trees stored⟩
  | failed unclosed => exact ⟨_, _, closeOr_of_failed closed failed, closed, .failed _ _⟩

theorem closeOr_onward {onward : Reading τ} {unclosed : Nat}
    (notYet : closing refs cursor = .ok (.failed unclosed))
    (found : other refs cursor = .ok (.matched next trees stored))
    (same : after (refs ++ stored) next = onward (refs ++ stored) next) :
    closing.closeOr other after refs cursor = onward.resume refs next trees stored := by
  rw [closeOr_of_matched notYet found, Reading.resume, same, Reading.resume]

/-! ## Readings that never fail -/

def NeverFails (reading : Reading τ) : Prop :=
  ∀ refs cursor offset, reading refs cursor ≠ .ok (.failed offset)

theorem neverFails_optional (reading : Reading τ) : reading.optional.NeverFails := by
  intro refs cursor offset
  unfold optional
  cases reading refs cursor with
  | error fault => exact nofun
  | ok outcome =>
      cases outcome with
      | matched next trees stored => exact nofun
      | failed _ => exact nofun

theorem NeverFails.resume (neverFails : second.NeverFails) (refs : List Backref) (next : Nat)
    (trees : List (MarkedTree τ)) (stored : List Backref) (offset : Nat) :
    second.resume refs next trees stored ≠ .ok (.failed offset) := by
  unfold Reading.resume
  cases found : second (refs ++ stored) next with
  | error fault => exact nofun
  | ok outcome =>
      cases outcome with
      | matched next' trees' stored' => exact nofun
      | failed offset' => exact absurd found (neverFails _ _ offset')

theorem neverFails_greedy (reading : Reading τ) (fault : Fault) (rounds : Nat) :
    (reading.greedy (.stop fault) rounds).NeverFails := by
  induction rounds with
  | zero => exact fun _ _ _ => nofun
  | succ rounds ih =>
      intro refs cursor offset failed
      cases found : reading refs cursor with
      | error fault =>
          simp only [greedy, found, Fault.error_bind] at failed
          cases failed
      | ok outcome =>
          cases outcome with
          | failed offset' =>
              rw [greedy_of_failed found] at failed
              cases failed
          | matched next trees stored =>
              by_cases same : next = cursor
              · subst same
                rw [greedy_of_rested found] at failed
                cases failed
              · rw [greedy_of_moved found same] at failed
                exact ih.resume refs next trees stored offset failed

theorem NeverFails.andThen (neverFails : first.NeverFails) (neverFails' : second.NeverFails) :
    (first.andThen second).NeverFails := by
  intro refs cursor offset
  cases found : first refs cursor with
  | error fault =>
      simp only [Reading.andThen, found, Fault.error_bind]
      intro impossible
      cases impossible
  | ok outcome =>
      cases outcome with
      | failed offset' => exact absurd found (neverFails _ _ offset')
      | matched next trees stored =>
          rw [andThen_of_matched found]
          exact neverFails'.resume refs next trees stored offset

/-! ## Blocks -/

/-- The places of a block: an item that matches leads on to the next of them. -/
def BlockPlaces (item closing : Reading τ) (limit : Nat) (place : List Backref → Nat → Prop) :
    Prop :=
  ∀ refs cursor, place refs cursor → item.Apart closing refs cursor fun next stored =>
    cursor < next ∧ next ≤ limit ∧ place (refs ++ stored) next

theorem blockRounds_alike {item : Reading τ} {limit : Nat} {place : List Backref → Nat → Prop}
    (places : BlockPlaces item closing limit place) (fault : Fault) {rounds turns : Nat}
    (here : place refs cursor) (enough : limit - cursor < rounds)
    (enough' : limit - cursor < turns) :
    MatchAlike (item.blockRounds closing rounds refs cursor)
      (((item.greedy (.stop fault) turns).andThen closing) refs cursor) := by
  induction rounds generalizing turns refs cursor with
  | zero => exact absurd enough (Nat.not_lt_zero _)
  | succ rounds ih =>
      obtain ⟨turns, rfl⟩ := Nat.exists_eq_add_one_of_ne_zero (Nat.ne_zero_of_lt enough')
      cases places refs cursor here with
      | refused failed closed =>
          rw [andThen_of_matched (greedy_of_failed failed), resume_nil]
          exact closeOr_of_refused failed closed
      | @taken _ next trees stored notYet found leads =>
          obtain ⟨moved, bounded, there⟩ := leads
          have onward : MatchAlike
              (item.blockRounds closing rounds (refs ++ stored) next)
              (((item.greedy (.stop fault) turns).andThen closing) (refs ++ stored) next) :=
            ih there (by omega) (by omega)
          rw [andThen_of_resume (greedy_of_moved found (Nat.ne_of_gt moved))]
          have rounds_eq : item.blockRounds closing (rounds + 1) refs cursor =
              (item.blockRounds closing rounds).resume refs next trees stored :=
            closeOr_onward notYet found (if_neg (Nat.ne_of_gt moved))
          rw [rounds_eq]
          exact onward.resume trees

/-! ## Lists -/

/-- The places of a list: where an item may begin (`false`) and where an item has ended (`true`). -/
structure ListPlaces (item separator closing : Reading τ) (limit : Nat)
    (place : Bool → List Backref → Nat → Prop) : Prop where
  item : ∀ refs cursor, place false refs cursor → item.Apart closing refs cursor fun next stored =>
    cursor < next ∧ next ≤ limit ∧ place true (refs ++ stored) next
  separator : ∀ refs cursor, place true refs cursor →
    separator.Apart closing refs cursor fun next stored =>
      cursor ≤ next ∧ place false (refs ++ stored) next

def afterItem (item separator closing : Reading τ) (rounds start : Nat) : Reading τ :=
  fun refs ended =>
    closing.closeOr separator
      (fun refs next =>
        if next = start then .ok (.failed ended)
        else listRounds item separator closing rounds refs next)
      refs ended

/-- More items, each after a separator, and perhaps one more separator. -/
def moreItems (item separator : Reading τ) (fault : Fault) (turns : Nat) : Reading τ :=
  ((separator.andThen item).greedy (.stop fault) turns).andThen separator.optional

variable {item separator : Reading τ} {limit : Nat} {place : Bool → List Backref → Nat → Prop}

theorem listRounds_succ (item separator closing : Reading τ) (rounds : Nat) (refs : List Backref)
    (cursor : Nat) : listRounds item separator closing (rounds + 1) refs cursor =
      closing.closeOr item (afterItem item separator closing rounds cursor) refs cursor :=
  rfl

theorem afterItem_of_taken {rounds start unclosed : Nat}
    (notYet : closing refs cursor = .ok (.failed unclosed))
    (found : separator refs cursor = .ok (.matched next trees stored)) (moved : start < next) :
    afterItem item separator closing rounds start refs cursor =
      (listRounds item separator closing rounds).resume refs next trees stored :=
  closeOr_onward notYet found (if_neg (Nat.ne_of_gt moved))

theorem neverFails_moreItems (item separator : Reading τ) (fault : Fault) (turns : Nat) :
    (moreItems item separator fault turns).NeverFails :=
  (neverFails_greedy _ fault turns).andThen (neverFails_optional separator)

/-- A separator that no item follows is the one more that may stand at the end. -/
theorem moreItems_of_last {fault : Fault} {turns offset : Nat}
    (found : separator refs cursor = .ok (.matched next trees stored))
    (failed : item (refs ++ stored) next = .ok (.failed offset)) :
    ((moreItems item separator fault (turns + 1)).andThen closing) refs cursor =
      closing.resume refs next trees stored := by
  have stops : (separator.andThen item) refs cursor = .ok (.failed offset) :=
    (andThen_of_matched found).trans (resume_of_failed failed trees)
  rw [moreItems, andThen_assoc, andThen_of_matched (greedy_of_failed stops), resume_nil,
    andThen_of_matched (optional_of_matched found)]

theorem moreItems_of_none {fault : Fault} {turns offset : Nat}
    (failed : separator refs cursor = .ok (.failed offset)) :
    ((moreItems item separator fault (turns + 1)).andThen closing) refs cursor =
      closing refs cursor := by
  rw [moreItems, andThen_assoc, andThen_of_matched (greedy_of_failed (andThen_of_failed failed)),
    resume_nil, andThen_of_matched (optional_of_failed failed), resume_nil]

theorem moreItems_of_next {fault : Fault} {turns next' : Nat} {trees' : List (MarkedTree τ)}
    {stored' : List Backref} (found : separator refs cursor = .ok (.matched next trees stored))
    (found' : item (refs ++ stored) next = .ok (.matched next' trees' stored'))
    (moved : cursor < next') :
    ((moreItems item separator fault (turns + 1)).andThen closing) refs cursor =
      ((moreItems item separator fault turns).andThen closing).resume refs next' (trees ++ trees')
        (stored ++ stored') := by
  have both : (separator.andThen item) refs cursor =
      .ok (.matched next' (trees ++ trees') (stored ++ stored')) :=
    (andThen_of_matched found).trans (resume_of_matched found')
  rw [moreItems, moreItems, andThen_assoc, andThen_assoc]
  exact andThen_of_resume (greedy_of_moved both (Nat.ne_of_gt moved))

/-- After an item, both ask for a separator and the bracket, and then for an item and the bracket:
the induction is on the rounds, each of which moves on over an item. -/
theorem afterItem_alike (places : ListPlaces item separator closing limit place) (fault : Fault)
    {rounds turns start : Nat} (here : place true refs cursor) (began : start < cursor)
    (enough : limit - cursor < rounds) (enough' : limit - cursor < turns) :
    MatchAlike (afterItem item separator closing rounds start refs cursor)
      (((moreItems item separator fault turns).andThen closing) refs cursor) := by
  induction rounds generalizing turns start refs cursor with
  | zero => exact absurd enough (Nat.not_lt_zero _)
  | succ rounds ih =>
      obtain ⟨turns, rfl⟩ := Nat.exists_eq_add_one_of_ne_zero (Nat.ne_zero_of_lt enough')
      cases places.separator refs cursor here with
      | refused failed closed =>
          rw [moreItems_of_none failed]
          exact closeOr_of_refused failed closed
      | @taken _ next trees stored notYet found leads =>
          obtain ⟨forward, between⟩ := leads
          rw [afterItem_of_taken notYet found (Nat.lt_of_lt_of_le began forward)]
          cases places.item _ next between with
          | refused failed closed =>
              have last : MatchAlike
                  (listRounds item separator closing (rounds + 1) (refs ++ stored) next)
                  (closing (refs ++ stored) next) := by
                rw [listRounds_succ]
                exact closeOr_of_refused failed closed
              rw [moreItems_of_last found failed]
              exact last.resume trees
          | @taken _ next' trees' stored' notYet' found' leads =>
              obtain ⟨moved, bounded, there⟩ := leads
              rw [List.append_assoc] at there
              have round : listRounds item separator closing (rounds + 1) (refs ++ stored) next =
                  (afterItem item separator closing rounds next).resume (refs ++ stored) next'
                    trees' stored' :=
                closeOr_of_matched notYet' found'
              have onward : MatchAlike
                  (afterItem item separator closing rounds next (refs ++ (stored ++ stored')) next')
                  (((moreItems item separator fault turns).andThen closing)
                    (refs ++ (stored ++ stored')) next') :=
                ih there moved (by omega) (by omega)
              rw [moreItems_of_next found found' (Nat.lt_of_le_of_lt forward moved),
                resume_of_resume round]
              exact onward.resume (trees ++ trees')

theorem listRounds_alike (places : ListPlaces item separator closing limit place) (fault : Fault)
    {rounds : Nat} {turns : Nat → Nat} (here : place false refs cursor)
    (enough : limit - cursor < rounds) (enough' : ∀ next, limit - next < turns next) :
    MatchAlike (listRounds item separator closing rounds refs cursor)
      (((item.andThen fun refs next =>
        moreItems item separator fault (turns next) refs next).optional.andThen closing)
        refs cursor) := by
  obtain ⟨rounds, rfl⟩ := Nat.exists_eq_add_one_of_ne_zero (Nat.ne_zero_of_lt enough)
  cases places.item refs cursor here with
  | refused failed closed =>
      rw [andThen_of_matched (optional_of_failed (andThen_of_failed failed)), resume_nil,
        listRounds_succ]
      exact closeOr_of_refused failed closed
  | @taken _ next trees stored notYet found leads =>
      obtain ⟨moved, bounded, there⟩ := leads
      have whole : (item.andThen fun refs next =>
          moreItems item separator fault (turns next) refs next) refs cursor =
            (moreItems item separator fault (turns next)).resume refs next trees stored :=
        andThen_of_matched found
      have never := (neverFails_moreItems item separator fault (turns next)).resume refs next trees
        stored
      rw [← whole] at never
      rw [andThen_of_resume ((optional_of_not_failed never).trans whole), listRounds_succ,
        closeOr_of_matched notYet found]
      exact (afterItem_alike places fault there moved (by omega) (enough' next)).resume trees

end Reading

end PegForest
