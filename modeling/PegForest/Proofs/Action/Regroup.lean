import PegForest.Proofs.Context.Rewind
import PegForest.Proofs.Isolation

/-!
# Actions that do the same

Two actions do the same when they answer alike from every context that tracks something: the same
verdict or fault, and the very same context.  Every combinator takes actions that do the same to
actions that do the same, since each action inside it is run on a context that tracks something
again.

A sequence inside a sequence, a choice inside a choice and an optional sequence at the end of an
optional sequence do the same as their parts in one list.  For choices this rests on rewinds: when
the inner choice fails it has put everything back, so that the rewind of the outer one has nothing
left to do; and the outer choice has failed at its own place at least, so that it makes no
difference where the inner one begins to count.
-/

set_option autoImplicit false

namespace PegForest.Action

variable {τ : Type}

/-- The actions answer alike from every context that tracks something. -/
def Same (action other : Action τ) : Prop :=
  ∀ builds ctx refs trees cursor, ctx.Tracks refs trees builds →
    action ctx cursor = other ctx cursor

/-- Whatever the action answers, the context tracks something again. -/
def Stays (action : Action τ) : Prop :=
  ∀ builds ctx refs trees cursor, ctx.Tracks refs trees builds →
    Yields (fun answer => ∃ refs' trees', answer.2.Tracks refs' trees' builds) (action ctx cursor)

variable {action action' first first' second second' last last' item item' separator separator'
  closing closing' : Action τ} {reading reading' reading'' : Reading τ} {builds : Bool}
  {ctx : Context τ} {refs : List Backref} {trees : List (MarkedTree τ)} {cursor : Nat}

theorem Realizes.stays (realizes : action.Realizes reading) : action.Stays := by
  intro builds ctx refs trees cursor tracks answer returned
  have agree := realizes builds ctx refs trees cursor tracks
  rw [returned] at agree
  obtain ⟨outcome, -, tells⟩ := agree.of_ok
  cases tells with
  | matched tracks' => exact ⟨_, _, tracks'⟩
  | failed tracks' => exact ⟨_, _, tracks'⟩

theorem Realizes.attempt_stays (realizes : action.Realizes reading) : action.attempt.Stays := by
  intro builds ctx refs trees cursor tracks answer returned
  have agree := realizes.attempt cursor tracks
  rw [returned] at agree
  obtain ⟨outcome, -, tells⟩ := agree.of_ok
  cases tells with
  | matched tracks' => exact ⟨_, _, tracks'⟩
  | failed tracks' => exact ⟨_, _, tracks'⟩

theorem Realizes.probe_stays (realizes : action.Realizes reading) : action.probe.Stays := by
  intro builds ctx refs trees cursor tracks answer returned
  exact ⟨_, _, realizes.probe_restores builds ctx refs trees cursor tracks answer returned⟩

theorem Stays.bind_congr {β : Type} (stays : action.Stays) (tracks : ctx.Tracks refs trees builds)
    (cursor : Nat) {next next' : Verdict × Context τ → Except Fault β}
    (goesOn : ∀ verdict ctx' refs' trees', ctx'.Tracks refs' trees' builds →
      next (verdict, ctx') = next' (verdict, ctx')) :
    (action ctx cursor >>= next) = (action ctx cursor >>= next') := by
  cases acted : action ctx cursor with
  | error fault => rfl
  | ok answer =>
      obtain ⟨refs', trees', tracks'⟩ := stays builds ctx refs trees cursor tracks answer acted
      exact goesOn answer.1 answer.2 refs' trees' tracks'

namespace Same

theorem refl (action : Action τ) : action.Same action :=
  fun _ _ _ _ _ _ => rfl

theorem of_eq (same : action = action') : action.Same action' := by
  subst same
  exact .refl _

theorem symm (same : action.Same action') : action'.Same action :=
  fun builds ctx refs trees cursor tracks => (same builds ctx refs trees cursor tracks).symm

theorem trans (same : first.Same second) (same' : second.Same last) : first.Same last := by
  intro builds ctx refs trees cursor tracks
  exact (same builds ctx refs trees cursor tracks).trans (same' builds ctx refs trees cursor tracks)

theorem realizes (same : action.Same action') (realizes : action.Realizes reading) :
    action'.Realizes reading := by
  intro builds ctx refs trees cursor tracks
  rw [← same builds ctx refs trees cursor tracks]
  exact realizes builds ctx refs trees cursor tracks

/-! ## Combinators that run one action once -/

theorem attempt (same : action.Same action') : action.attempt.Same action'.attempt := by
  intro builds ctx refs trees cursor tracks
  simp only [Action.attempt, same builds ctx refs trees cursor tracks]

theorem probe (same : action.Same action') : action.probe.Same action'.probe := by
  intro builds ctx refs trees cursor tracks
  simp only [Action.probe, same builds ctx refs trees cursor tracks]

theorem nonEmpty (same : action.Same action') : action.nonEmpty.Same action'.nonEmpty := by
  intro builds ctx refs trees cursor tracks
  simp only [Action.nonEmpty, same builds ctx refs trees cursor tracks]

theorem optional (same : action.Same action') : action.optional.Same action'.optional := by
  intro builds ctx refs trees cursor tracks
  simp only [Action.optional, same.attempt builds ctx refs trees cursor tracks]

theorem ahead (same : action.Same action') : action.ahead.Same action'.ahead := by
  intro builds ctx refs trees cursor tracks
  simp only [Action.ahead, same.probe builds ctx refs trees cursor tracks]

theorem notAhead (same : action.Same action') : action.notAhead.Same action'.notAhead := by
  intro builds ctx refs trees cursor tracks
  simp only [Action.notAhead, same.probe builds ctx refs trees cursor tracks]

theorem store (same : action.Same action') (name : String) :
    (action.store name).Same (action'.store name) := by
  intro builds ctx refs trees cursor tracks
  simp only [Action.store, same builds ctx refs trees cursor tracks]

theorem building (same : action.Same action')
    (change : Context τ → Option NodeId → Nat → Nat → Except Fault (Context τ)) :
    (action.building change).Same (action'.building change) := by
  intro builds ctx refs trees cursor tracks
  simp only [Action.building, same.attempt builds ctx refs trees cursor tracks]

theorem node (same : action.Same action') (tag : Option τ) (bookmark : Bool) :
    (action.node tag bookmark).Same (action'.node tag bookmark) :=
  same.building _

theorem promote (same : action.Same action') : action.promote.Same action'.promote :=
  same.building _

/-! ## Combinators that go on -/

theorem andThen (same : first.Same first') (realizes : first.Realizes reading)
    (same' : second.Same second') : (first.andThen second).Same (first'.andThen second') := by
  intro builds ctx refs trees cursor tracks
  unfold Action.andThen
  rw [← same builds ctx refs trees cursor tracks]
  apply realizes.stays.bind_congr tracks
  rintro (next | offset) ctx' refs' trees' tracks'
  · exact same' builds ctx' refs' trees' next tracks'
  · rfl

theorem sequence {actions actions' : List (Action τ)} {readings : List (Reading τ)}
    (same : List.Forall₂ Same actions actions')
    (realizes : List.Forall₂ Realizes actions readings) :
    (Action.sequence actions).Same (Action.sequence actions') := by
  induction same generalizing readings with
  | nil => exact .refl _
  | cons here _ ih =>
      cases realizes with
      | cons realizes later => exact here.andThen realizes (ih later)

theorem sequenceOpt {actions actions' : List (Action τ)} {readings : List (Reading τ)}
    (same : List.Forall₂ Same actions actions')
    (realizes : List.Forall₂ Realizes actions readings) :
    (Action.sequenceOpt actions).Same (Action.sequenceOpt actions') := by
  induction same generalizing readings with
  | nil => exact .refl _
  | cons here _ ih =>
      cases realizes with
      | cons realizes later =>
          intro builds ctx refs trees cursor tracks
          unfold Action.sequenceOpt
          rw [← here.attempt builds ctx refs trees cursor tracks]
          apply realizes.attempt_stays.bind_congr tracks
          rintro (next | offset) ctx' refs' trees' tracks'
          · exact ih later builds ctx' refs' trees' next tracks'
          · rfl

theorem firstOf {actions actions' : List (Action τ)} {readings : List (Reading τ)}
    (same : List.Forall₂ Same actions actions')
    (realizes : List.Forall₂ Realizes actions readings) (offset : Nat) :
    (Action.firstOf offset actions).Same (Action.firstOf offset actions') := by
  induction same generalizing readings offset with
  | nil => exact .refl _
  | cons here _ ih =>
      cases realizes with
      | cons realizes later =>
          intro builds ctx refs trees cursor tracks
          unfold Action.firstOf
          rw [← here.attempt builds ctx refs trees cursor tracks]
          apply realizes.attempt_stays.bind_congr tracks
          rintro (next | furthest) ctx' refs' trees' tracks'
          · rfl
          · exact ih later (max offset furthest) builds ctx' refs' trees' cursor tracks'

theorem choice {actions actions' : List (Action τ)} {readings : List (Reading τ)}
    (same : List.Forall₂ Same actions actions')
    (realizes : List.Forall₂ Realizes actions readings) :
    (Action.choice actions).Same (Action.choice actions') := by
  intro builds ctx refs trees cursor tracks
  exact firstOf same realizes cursor builds ctx refs trees cursor tracks

/-! ## Loops -/

theorem greedy (same : action.Same action') (realizes : action.Realizes reading)
    (same' : last.Same last') (rounds : Nat) :
    (action.greedy last rounds).Same (action'.greedy last' rounds) := by
  induction rounds with
  | zero => exact same'
  | succ rounds ih =>
      intro builds ctx refs trees cursor tracks
      unfold Action.greedy
      rw [← same.attempt builds ctx refs trees cursor tracks]
      apply realizes.attempt_stays.bind_congr tracks
      rintro (next | offset) ctx' refs' trees' tracks'
      · dsimp only
        rw [ih builds ctx' refs' trees' next tracks']
      · rfl

theorem thenIfMoved (same : first.Same first') (realizes : first.Realizes reading)
    (same' : second.Same second') :
    (first.thenIfMoved second).Same (first'.thenIfMoved second') := by
  intro builds ctx refs trees cursor tracks
  unfold Action.thenIfMoved
  rw [← same builds ctx refs trees cursor tracks]
  apply realizes.stays.bind_congr tracks
  rintro (next | offset) ctx' refs' trees' tracks'
  · dsimp only
    rw [same' builds ctx' refs' trees' next tracks']
  · rfl

theorem times (same : action.Same action') (realizes : action.Realizes reading) (count : Nat) :
    (action.times count).Same (action'.times count) := by
  induction count with
  | zero => exact .refl _
  | succ count ih => exact same.andThen realizes ih

theorem atLeast (same : action.Same action') (realizes : action.Realizes reading)
    (same' : last.Same last') (count : Nat) :
    (action.atLeast last count).Same (action'.atLeast last' count) := by
  induction count with
  | zero => exact same'
  | succ count ih => exact same.thenIfMoved realizes ih

theorem upTo (same : action.Same action') (realizes : action.Realizes reading) (left : Nat) :
    (action.upTo left).Same (action'.upTo left) := by
  induction left with
  | zero =>
      intro builds ctx refs trees cursor tracks
      simp only [Action.upTo, same.probe builds ctx refs trees cursor tracks]
  | succ left ih =>
      intro builds ctx refs trees cursor tracks
      unfold Action.upTo
      rw [← same.probe builds ctx refs trees cursor tracks]
      apply realizes.probe_stays.bind_congr tracks
      rintro (next | offset) ctx' refs' trees' tracks'
      · rfl
      · exact ih builds ctx' refs' trees' (cursor + 1) tracks'

theorem closeOr (same : closing.Same closing') (realizes : closing.Realizes reading)
    (same' : first.Same first') (realizes' : first.Realizes reading')
    (same'' : second.Same second') :
    (closing.closeOr first second).Same (closing'.closeOr first' second') := by
  intro builds ctx refs trees cursor tracks
  unfold Action.closeOr
  rw [← same.attempt builds ctx refs trees cursor tracks]
  apply realizes.attempt_stays.bind_congr tracks
  rintro (next | unclosed) ctx' refs' trees' tracks'
  · rfl
  · dsimp only
    rw [← same' builds ctx' refs' trees' cursor tracks']
    apply realizes'.stays.bind_congr tracks'
    rintro (next | offset) ctx'' refs'' trees'' tracks''
    · exact same'' builds ctx'' refs'' trees'' next tracks''
    · rfl

theorem blockRounds (same : item.Same item') (realizes : item.Realizes reading)
    (same' : closing.Same closing') (realizes' : closing.Realizes reading') (rounds : Nat) :
    (item.blockRounds closing rounds).Same (item'.blockRounds closing' rounds) := by
  induction rounds with
  | zero => exact .refl _
  | succ rounds ih =>
      intro builds ctx refs trees cursor tracks
      refine same'.closeOr realizes' same realizes ?_ builds ctx refs trees cursor tracks
      intro builds ctx refs trees next tracks
      dsimp only
      rw [ih builds ctx refs trees next tracks]

theorem listRounds (same : item.Same item') (realizes : item.Realizes reading)
    (same' : separator.Same separator') (realizes' : separator.Realizes reading')
    (same'' : closing.Same closing') (realizes'' : closing.Realizes reading'') (rounds : Nat) :
    (item.listRounds separator closing rounds).Same
      (item'.listRounds separator' closing' rounds) := by
  induction rounds with
  | zero => exact .refl _
  | succ rounds ih =>
      intro builds ctx refs trees cursor tracks
      refine same''.closeOr realizes'' same realizes ?_ builds ctx refs trees cursor tracks
      intro builds ctx refs trees afterItem tracks
      refine same''.closeOr realizes'' same' realizes' ?_ builds ctx refs trees afterItem tracks
      intro builds ctx refs trees next tracks
      dsimp only
      rw [ih builds ctx refs trees next tracks]

end Same

/-! ## Attempts that have nothing to take back -/

/-- An action that puts everything back when it fails is its own attempt. -/
theorem Settles.attempt_same (settles : action.Settles) : action.attempt.Same action := by
  intro builds ctx refs trees cursor tracks
  unfold attempt
  cases acted : action ctx cursor with
  | error fault => rfl
  | ok answer =>
      obtain ⟨next | offset, ctx'⟩ := answer
      · rfl
      · have settled := settles builds ctx refs trees cursor tracks _ acted offset rfl
        simp only [Fault.ok_bind, tracks.rewind_same settled, Fault.pure_eq_ok]

theorem sequenceOpt_matches (actions : List (Action τ)) (ctx : Context τ) (cursor : Nat) :
    Yields (fun answer => ∃ next, answer.1 = .matched next) (sequenceOpt actions ctx cursor) := by
  induction actions generalizing ctx cursor with
  | nil => exact .ok ⟨cursor, rfl⟩
  | cons action rest ih =>
      refine .bind_any ?_
      rintro ⟨next | offset, ctx'⟩
      · exact ih ctx' next
      · exact .ok ⟨cursor, rfl⟩

theorem settles_sequenceOpt (actions : List (Action τ)) : (sequenceOpt actions).Settles := by
  intro builds ctx refs trees cursor tracks answer returned offset failed
  obtain ⟨next, matched⟩ := sequenceOpt_matches actions ctx cursor answer returned
  rw [matched] at failed
  cases failed

/-! ## Lists inside lists -/

theorem andThen_assoc (first second third : Action τ) :
    (first.andThen second).andThen third = first.andThen (second.andThen third) := by
  funext ctx cursor
  unfold andThen
  cases first ctx cursor with
  | error fault => rfl
  | ok answer =>
      obtain ⟨next | offset, ctx'⟩ := answer
      · rfl
      · rfl

theorem andThen_succeed (action : Action τ) : action.andThen succeed = action := by
  funext ctx cursor
  unfold andThen
  cases action ctx cursor with
  | error fault => rfl
  | ok answer =>
      obtain ⟨next | offset, ctx'⟩ := answer
      · rfl
      · rfl

theorem sequence_append (front back : List (Action τ)) :
    sequence (front ++ back) = (sequence front).andThen (sequence back) := by
  induction front with
  | nil => rfl
  | cons action rest ih =>
      rw [List.cons_append, sequence, sequence, ih, andThen_assoc]

theorem sequence_nested (front inner back : List (Action τ)) :
    sequence (front ++ sequence inner :: back) = sequence (front ++ inner ++ back) := by
  rw [List.append_assoc, sequence_append, sequence, ← sequence_append inner, ← sequence_append]

theorem sequenceOpt_nested {front : List (Action τ)} {readings : List (Reading τ)}
    (realizes : List.Forall₂ Realizes front readings) (inner : List (Action τ)) :
    (sequenceOpt (front ++ [sequenceOpt inner])).Same (sequenceOpt (front ++ inner)) := by
  induction realizes with
  | nil =>
      intro builds ctx refs trees cursor tracks
      have alone := (settles_sequenceOpt inner).attempt_same builds ctx refs trees cursor tracks
      simp only [List.nil_append, sequenceOpt, alone]
      have matches' := sequenceOpt_matches inner ctx cursor
      cases acted : sequenceOpt inner ctx cursor with
      | error fault => rfl
      | ok answer =>
          obtain ⟨verdict, ctx'⟩ := answer
          obtain ⟨next, rfl⟩ := matches' _ acted
          rfl
  | cons here _ ih =>
      intro builds ctx refs trees cursor tracks
      simp only [List.cons_append, sequenceOpt]
      apply here.attempt_stays.bind_congr tracks
      rintro (next | offset) ctx' refs' trees' tracks'
      · exact ih builds ctx' refs' trees' next tracks'
      · rfl

theorem firstOf_append (offset : Nat) (front back : List (Action τ)) (ctx : Context τ)
    (cursor : Nat) :
    firstOf offset (front ++ back) ctx cursor = (do
      match ← firstOf offset front ctx cursor with
      | (.matched next, ctx) => return (.matched next, ctx)
      | (.failed furthest, ctx) => firstOf furthest back ctx cursor) := by
  induction front generalizing offset ctx with
  | nil => rfl
  | cons action rest ih =>
      simp only [List.cons_append, firstOf]
      cases action.attempt ctx cursor with
      | error fault => rfl
      | ok answer =>
          obtain ⟨next | furthest, ctx'⟩ := answer
          · rfl
          · exact ih (max offset furthest) ctx'

/-- A choice that begins to count at a later offset fails at that offset at least, and else it does
the same. -/
theorem firstOf_max (offset start : Nat) (actions : List (Action τ)) (ctx : Context τ)
    (cursor : Nat) :
    firstOf (max offset start) actions ctx cursor = (do
      match ← firstOf start actions ctx cursor with
      | (.matched next, ctx) => return (.matched next, ctx)
      | (.failed furthest, ctx) => return (.failed (max offset furthest), ctx)) := by
  induction actions generalizing start ctx with
  | nil => rfl
  | cons action rest ih =>
      simp only [firstOf]
      cases action.attempt ctx cursor with
      | error fault => rfl
      | ok answer =>
          obtain ⟨next | furthest, ctx'⟩ := answer
          · rfl
          · simp only [Fault.ok_bind, Nat.max_assoc]
            exact ih (max start furthest) ctx'

theorem firstOf_bounded (offset : Nat) (actions : List (Action τ)) (ctx : Context τ)
    (cursor : Nat) :
    Yields (fun answer => ∀ furthest, answer.1 = .failed furthest → offset ≤ furthest)
      (firstOf offset actions ctx cursor) := by
  induction actions generalizing offset ctx with
  | nil =>
      refine .ok ?_
      rintro furthest ⟨⟩
      exact Nat.le_refl offset
  | cons action rest ih =>
      refine .bind_any ?_
      rintro ⟨next | here, ctx'⟩
      · refine .ok ?_
        rintro furthest ⟨⟩
      · intro answer returned furthest failed
        have later := ih (max offset here) ctx' answer returned furthest failed
        exact Nat.le_trans (Nat.le_max_left offset here) later

/-- A choice as the first alternative, where a failure at its own place is known already. -/
theorem firstOf_nested {inner : List (Action τ)} {readings : List (Reading τ)}
    (realizes : List.Forall₂ Realizes inner readings) (back : List (Action τ)) {offset : Nat}
    (later : cursor ≤ offset) (tracks : ctx.Tracks refs trees builds) :
    firstOf offset (choice inner :: back) ctx cursor =
      firstOf offset (inner ++ back) ctx cursor := by
  have alone : (choice inner).attempt ctx cursor = firstOf cursor inner ctx cursor :=
    (settles_choice realizes).attempt_same builds ctx refs trees cursor tracks
  have raised := firstOf_max offset cursor inner ctx cursor
  rw [Nat.max_eq_left later] at raised
  rw [firstOf_append, raised]
  simp only [firstOf, alone]
  cases firstOf cursor inner ctx cursor with
  | error fault => rfl
  | ok answer =>
      obtain ⟨next | furthest, ctx'⟩ := answer
      · rfl
      · rfl

theorem choice_nested {front inner : List (Action τ)} {readings readings' : List (Reading τ)}
    (realizes : List.Forall₂ Realizes front readings)
    (realizes' : List.Forall₂ Realizes inner readings') (back : List (Action τ)) :
    (choice (front ++ choice inner :: back)).Same (choice (front ++ inner ++ back)) := by
  intro builds ctx refs trees cursor tracks
  unfold choice
  rw [List.append_assoc, firstOf_append, firstOf_append]
  have settles := settles_firstOf realizes cursor builds ctx refs trees cursor tracks
  have bounded := firstOf_bounded cursor front ctx cursor
  cases acted : firstOf cursor front ctx cursor with
  | error fault => rfl
  | ok answer =>
      obtain ⟨next | furthest, ctx'⟩ := answer
      · rfl
      · have later : cursor ≤ furthest := bounded _ acted furthest rfl
        exact firstOf_nested realizes' back later (settles _ acted furthest rfl)

end PegForest.Action
