import PegForest.Proofs.Session.Answer

/-!
# Attempts that are given up

Looking ahead and looking for a place never change what a context tracks, and what fails inside an
attempt is taken back before anybody goes on.  So the alternatives of a choice all begin where the
choice begins, as if each of them were alone: the first that matches decides, and when none does,
the choice fails where the furthest of them failed.
-/

set_option autoImplicit false

namespace PegForest

variable {τ : Type}

/-! ## What an action puts back -/

namespace Action

def Restores (action : Action τ) : Prop :=
  ∀ builds ctx refs trees cursor, ctx.Tracks refs trees builds →
    Yields (fun answer => answer.2.Tracks refs trees builds) (action ctx cursor)

/-- After a failure the context tracks what it tracked. -/
def Settles (action : Action τ) : Prop :=
  ∀ builds ctx refs trees cursor, ctx.Tracks refs trees builds →
    Yields (fun answer => ∀ offset, answer.1 = .failed offset → answer.2.Tracks refs trees builds)
      (action ctx cursor)

variable {action : Action τ} {reading : Reading τ}

theorem Realizes.probe_restores (realizes : action.Realizes reading) : action.probe.Restores := by
  intro builds ctx refs trees cursor tracks answer returned
  have agree := realizes.probe cursor tracks
  rw [returned] at agree
  obtain ⟨outcome, -, tells⟩ := agree.of_ok
  cases tells with
  | matched tracks' => exact tracks'
  | failed tracks' => exact tracks'

theorem Realizes.attempt_settles (realizes : action.Realizes reading) : action.attempt.Settles := by
  intro builds ctx refs trees cursor tracks answer returned offset failed
  have agree := realizes.attempt cursor tracks
  rw [returned] at agree
  obtain ⟨outcome, -, tells⟩ := agree.of_ok
  cases tells with
  | matched _ => cases failed
  | failed tracks' => exact tracks'

theorem Restores.ahead (restores : action.probe.Restores) : action.ahead.Restores := by
  intro builds ctx refs trees cursor tracks
  refine .bind (restores builds ctx refs trees cursor tracks) ?_
  rintro ⟨next | offset, ctx'⟩ tracks'
  · exact .ok tracks'
  · exact .ok tracks'

theorem Restores.notAhead (restores : action.probe.Restores) : action.notAhead.Restores := by
  intro builds ctx refs trees cursor tracks
  refine .bind (restores builds ctx refs trees cursor tracks) ?_
  rintro ⟨next | offset, ctx'⟩ tracks'
  · exact .ok tracks'
  · exact .ok tracks'

theorem Restores.upTo (restores : action.probe.Restores) (left : Nat) :
    (action.upTo left).Restores := by
  induction left with
  | zero =>
      intro builds ctx refs trees cursor tracks
      refine .bind (restores builds ctx refs trees cursor tracks) ?_
      rintro ⟨next | offset, ctx'⟩ tracks'
      · exact .ok tracks'
      · exact .ok tracks'
  | succ left ih =>
      intro builds ctx refs trees cursor tracks
      refine .bind (restores builds ctx refs trees cursor tracks) ?_
      rintro ⟨next | offset, ctx'⟩ tracks'
      · exact .ok tracks'
      · exact ih builds ctx' refs trees (cursor + 1) tracks'

theorem Settles.building (settles : action.attempt.Settles)
    (change : Context τ → Option NodeId → Nat → Nat → Except Fault (Context τ)) :
    (action.building change).Settles := by
  intro builds ctx refs trees cursor tracks
  refine .bind (settles builds ctx refs trees cursor tracks) ?_
  rintro ⟨next | offset, ctx'⟩ settled
  · refine .bind_any fun changed => .ok ?_
    rintro offset ⟨⟩
  · refine .ok ?_
    rintro _ -
    exact settled offset rfl

theorem Settles.node (settles : action.attempt.Settles) (tag : Option τ) (bookmark : Bool) :
    (action.node tag bookmark).Settles :=
  settles.building _

theorem Settles.promote (settles : action.attempt.Settles) : action.promote.Settles :=
  settles.building _

theorem settles_firstOf {actions : List (Action τ)} {readings : List (Reading τ)}
    (realizes : List.Forall₂ Realizes actions readings) (offset : Nat) :
    (firstOf offset actions).Settles := by
  induction realizes generalizing offset with
  | nil =>
      intro builds ctx refs trees cursor tracks
      refine .ok ?_
      rintro _ -
      exact tracks
  | cons here _ ih =>
      intro builds ctx refs trees cursor tracks
      refine .bind (here.attempt_settles builds ctx refs trees cursor tracks) ?_
      rintro ⟨next | furthest, ctx'⟩ settled
      · refine .ok ?_
        rintro offset ⟨⟩
      · exact ih (max offset furthest) builds ctx' refs trees cursor (settled furthest rfl)

theorem settles_choice {actions : List (Action τ)} {readings : List (Reading τ)}
    (realizes : List.Forall₂ Realizes actions readings) : (choice actions).Settles := by
  intro builds ctx refs trees cursor tracks
  exact settles_firstOf realizes cursor builds ctx refs trees cursor tracks

end Action

/-! ## Answers of readings -/

namespace Reading

variable {reading : Reading τ} {refs : List Backref} {cursor : Nat}

theorem ahead_returns (returns : ∃ outcome, reading refs cursor = .ok outcome) :
    ∃ outcome, reading.ahead refs cursor = .ok outcome := by
  refine Fault.bind_returns returns ?_
  rintro (⟨next, trees, stored⟩ | offset)
  · exact ⟨_, rfl⟩
  · exact ⟨_, rfl⟩

theorem notAhead_returns (returns : ∃ outcome, reading refs cursor = .ok outcome) :
    ∃ outcome, reading.notAhead refs cursor = .ok outcome := by
  refine Fault.bind_returns returns ?_
  rintro (⟨next, trees, stored⟩ | offset)
  · exact ⟨_, rfl⟩
  · exact ⟨_, rfl⟩

theorem building_returns (returns : ∃ outcome, reading refs cursor = .ok outcome)
    (change : Nat → Nat → List (MarkedTree τ) → List (MarkedTree τ)) :
    ∃ outcome, reading.building change refs cursor = .ok outcome := by
  refine Fault.bind_returns returns ?_
  rintro (⟨next, trees, stored⟩ | offset)
  · exact ⟨_, rfl⟩
  · exact ⟨_, rfl⟩

theorem node_returns (returns : ∃ outcome, reading refs cursor = .ok outcome) (tag : Option τ)
    (bookmark : Bool) : ∃ outcome, reading.node tag bookmark refs cursor = .ok outcome :=
  building_returns returns _

theorem promote_returns (returns : ∃ outcome, reading refs cursor = .ok outcome) :
    ∃ outcome, reading.promote refs cursor = .ok outcome :=
  building_returns returns _

/-- Looking for a place asks the reading at every place up to the first that matches. -/
theorem upTo_returns (left : Nat) (returns : ∀ place, cursor ≤ place → place ≤ cursor + left →
      (∀ earlier, cursor ≤ earlier → earlier < place →
        ∃ offset, reading refs earlier = .ok (.failed offset)) →
      ∃ outcome, reading refs place = .ok outcome) :
    ∃ outcome, reading.upTo left refs cursor = .ok outcome := by
  induction left generalizing cursor with
  | zero =>
      obtain ⟨outcome, found⟩ := returns cursor (Nat.le_refl _) (Nat.le_refl _)
        fun earlier lower upper => absurd lower (Nat.not_le.mpr upper)
      refine Fault.bind_returns ⟨outcome, found⟩ ?_
      rintro (⟨next, trees, stored⟩ | offset)
      · exact ⟨_, rfl⟩
      · exact ⟨_, rfl⟩
  | succ left ih =>
      obtain ⟨outcome, found⟩ := returns cursor (Nat.le_refl _) (Nat.le_add_right _ _)
        fun earlier lower upper => absurd lower (Nat.not_le.mpr upper)
      cases outcome with
      | matched next trees stored =>
          refine ⟨.matched cursor [] [], ?_⟩
          simp only [upTo, found, Fault.ok_bind, Fault.pure_eq_ok]
      | failed offset =>
          have later : ∃ outcome, reading.upTo left refs (cursor + 1) = .ok outcome := by
            refine ih fun place lower upper refused => ?_
            refine returns place (by omega) (by omega) fun earlier lower' upper' => ?_
            rcases Nat.eq_or_lt_of_le lower' with rfl | beyond
            · exact ⟨offset, found⟩
            · exact refused earlier beyond upper'
          obtain ⟨outcome, found'⟩ := later
          refine ⟨outcome, ?_⟩
          simp only [upTo, found, Fault.ok_bind, found']

/-- A choice none of whose readings matches fails where the furthest of them fails. -/
theorem firstOf_of_refused {readings : List (Reading τ)} {offsets : List Nat}
    (refused : List.Forall₂ (fun reading offset => reading refs cursor = .ok (.failed offset))
      readings offsets) (start : Nat) :
    firstOf start readings refs cursor = .ok (.failed (offsets.foldl max start)) := by
  induction refused generalizing start with
  | nil => rfl
  | cons failed _ ih =>
      rw [firstOf_of_failed failed]
      exact ih _

end Reading

/-! ## Matches -/

namespace Session

variable {α : Type} [Atom α] {attempt : Match α τ} {builds : Bool} {ctx : Context τ}
  {refs : List Backref} {trees : List (MarkedTree τ)}

def Match.LeavesNoTrace (attempt : Match α τ) (ctx : Context τ) : Prop :=
  ∃ span ctx', attempt.run ctx = .ok (span, ctx') ∧ SameState ctx' ctx

def Match.CleansUp (attempt : Match α τ) (ctx : Context τ) : Prop :=
  ∃ span ctx', attempt.run ctx = .ok (span, ctx') ∧ (span.isValid = false → SameState ctx' ctx)

/-- The answer of a choice between alternatives, given by what each of them answers when it is run
on the same context alone. -/
structure Match.Decides (attempt : Match α τ) (alternatives : List (Matcher α τ attempt.Rule))
    (ctx : Context τ) (span : Span α) (ctx' : Context τ) : Prop where
  succeeds : span.isValid = true ↔ ∃ matcher ∈ alternatives, (attempt.trying matcher).Succeeds ctx
  first : ∀ before matcher after span' ctx'', alternatives = before ++ matcher :: after →
    (∀ other ∈ before, (attempt.trying other).Fails ctx) →
    (attempt.trying matcher).run ctx = .ok (span', ctx'') → span'.isValid = true →
    span = span' ∧ SameState ctx' ctx''
  fails : span.isValid = false ↔ ∀ matcher ∈ alternatives, (attempt.trying matcher).Fails ctx
  /-- A failure is the furthest failure of an alternative, but not before the choice. -/
  furthest : span.isValid = false → SameState ctx' ctx ∧ ∃ offsets,
    List.Forall₂ (fun matcher offset => ∃ ctx'',
      (attempt.trying matcher).run ctx = .ok (.failed attempt.source offset, ctx''))
      alternatives offsets ∧
    span = .failed attempt.source (offsets.foldl max attempt.cursor)

theorem Match.leavesNoTrace_of_restores (inside : attempt.Inside)
    (tracks : ctx.Tracks refs trees builds) (read : ∃ outcome, attempt.reading refs = .ok outcome)
    (restores : (attempt.action ⟨attempt.source, attempt.limit⟩).Restores) :
    attempt.LeavesNoTrace ctx := by
  obtain ⟨outcome, read⟩ := read
  obtain ⟨⟨span, ctx'⟩, ran, -⟩ := Match.run_of_read inside tracks read
  obtain ⟨-, verdict, acted, -⟩ := Match.run_eq_ok.mp ran
  exact ⟨span, ctx', ran, .of_tracks (restores builds ctx refs trees _ tracks _ acted) tracks⟩

theorem Match.sameState_of_settles (tracks : ctx.Tracks refs trees builds)
    (settles : (attempt.action ⟨attempt.source, attempt.limit⟩).Settles) {span : Span α}
    {ctx' : Context τ} (ran : attempt.run ctx = .ok (span, ctx')) (invalid : span.isValid = false) :
    SameState ctx' ctx := by
  obtain ⟨-, verdict, acted, rfl⟩ := Match.run_eq_ok.mp ran
  cases verdict with
  | matched next => cases invalid
  | failed offset =>
      exact .of_tracks (settles builds ctx refs trees _ tracks _ acted offset rfl) tracks

theorem Match.cleansUp_of_settles (inside : attempt.Inside) (tracks : ctx.Tracks refs trees builds)
    (read : ∃ outcome, attempt.reading refs = .ok outcome)
    (settles : (attempt.action ⟨attempt.source, attempt.limit⟩).Settles) :
    attempt.CleansUp ctx := by
  obtain ⟨outcome, read⟩ := read
  obtain ⟨⟨span, ctx'⟩, ran, -⟩ := Match.run_of_read inside tracks read
  exact ⟨span, ctx', ran, Match.sameState_of_settles tracks settles ran⟩

theorem tracks_of_unexpected {task : Task α τ} {parser : Parser} {describe : α → String}
    {input : Array α} {ctx' : Context τ} {range : Range} {name detail : String}
    (emptied : parser.reset = true) (settles : (task.action ⟨input, input.size⟩).Settles)
    (tracks : ctx.Tracks refs trees builds)
    (ran : parser.runOn describe task.onSpan ctx input =
      .ok (.error (.unexpected range name detail), ctx')) : ctx'.Tracks [] [] builds := by
  obtain ⟨after, acted, rfl⟩ := failed_of_unexpected ran
  rw [emptied, if_pos rfl] at acted
  exact (settles builds ctx.reset [] [] 0 tracks.reset _ acted range.start rfl).emit _

/-- An option whose matcher fails matches nothing and builds nothing. -/
theorem Match.opt_leavesNoTrace {inner : Matcher α τ attempt.Rule} (inside : attempt.Inside)
    (tracks : ctx.Tracks refs trees builds) {offset : Nat}
    (read : (attempt.trying inner).reading refs = .ok (.failed offset)) :
    (attempt.trying (.opt inner)).LeavesNoTrace ctx := by
  have whole : (attempt.trying (.opt inner)).reading refs = .ok (.matched attempt.cursor [] []) :=
    Reading.optional_of_failed read
  obtain ⟨⟨span, ctx'⟩, ran, answers⟩ := Match.run_of_read (inside.trying (.opt inner)) tracks whole
  cases answers with
  | matched tracks' =>
      rw [List.append_nil, List.append_nil] at tracks'
      exact ⟨_, ctx', ran, .of_tracks tracks' tracks⟩

/-! ## Choices -/

theorem Match.choice_reading (attempt : Match α τ) (alternatives : List (Matcher α τ attempt.Rule))
    (refs : List Backref) :
    (attempt.trying (.choice alternatives)).reading refs =
      Reading.firstOf attempt.cursor (alternatives.map fun matcher =>
        (attempt.trying matcher).toTask.reading ⟨attempt.source, attempt.limit⟩) refs
          attempt.cursor :=
  congrArg (fun readings => Reading.firstOf attempt.cursor readings refs attempt.cursor)
    (Matcher.readings_eq_map _ _ _ alternatives)

theorem Match.first_or_none {alternatives : List (Matcher α τ attempt.Rule)}
    (read : ∀ matcher ∈ alternatives,
      ∃ outcome, (attempt.trying matcher).reading refs = .ok outcome) :
    (∃ before matcher after next new stored, alternatives = before ++ matcher :: after ∧
      (∀ other ∈ before, ∃ offset, (attempt.trying other).reading refs = .ok (.failed offset)) ∧
      (attempt.trying matcher).reading refs = .ok (.matched next new stored)) ∨
    ∃ offsets, List.Forall₂ (fun matcher offset =>
      (attempt.trying matcher).reading refs = .ok (.failed offset)) alternatives offsets := by
  induction alternatives with
  | nil => exact .inr ⟨[], .nil⟩
  | cons matcher rest ih =>
      rw [List.forall_mem_cons] at read
      obtain ⟨⟨next, new, stored⟩ | offset, found⟩ := read.1
      · exact .inl ⟨[], matcher, rest, next, new, stored, rfl, List.forall_mem_nil _, found⟩
      · rcases ih read.2 with ⟨before, later, after, next, new, stored, rfl, refused, found'⟩ |
          ⟨offsets, refused⟩
        · refine .inl ⟨matcher :: before, later, after, next, new, stored, rfl, ?_, found'⟩
          exact List.forall_mem_cons.mpr ⟨⟨offset, found⟩, refused⟩
        · exact .inr ⟨offset :: offsets, .cons found refused⟩

theorem Match.choice_of_first {before after : List (Matcher α τ attempt.Rule)}
    {matcher : Matcher α τ attempt.Rule} {next : Nat} {new : List (MarkedTree τ)}
    {stored : List Backref}
    (refused : ∀ other ∈ before, ∃ offset,
      (attempt.trying other).reading refs = .ok (.failed offset))
    (found : (attempt.trying matcher).reading refs = .ok (.matched next new stored)) :
    (attempt.trying (.choice (before ++ matcher :: after))).reading refs =
      .ok (.matched next new stored) := by
  rw [attempt.choice_reading, List.map_append, List.map_cons]
  exact Reading.firstOf_of_member (List.forall_mem_map.mpr refused) found attempt.cursor

theorem Match.choice_of_none {alternatives : List (Matcher α τ attempt.Rule)} {offsets : List Nat}
    (refused : List.Forall₂ (fun matcher offset =>
      (attempt.trying matcher).reading refs = .ok (.failed offset)) alternatives offsets) :
    (attempt.trying (.choice alternatives)).reading refs =
      .ok (.failed (offsets.foldl max attempt.cursor)) := by
  rw [attempt.choice_reading]
  exact Reading.firstOf_of_refused (List.forall₂_map_left_iff.mpr refused) attempt.cursor

/-- A choice answers as the first alternative that matches does alone. -/
theorem Match.choice_follows {before after : List (Matcher α τ attempt.Rule)}
    {matcher : Matcher α τ attempt.Rule} (inside : attempt.Inside)
    (tracks : ctx.Tracks refs trees builds)
    (refused : ∀ other ∈ before, (attempt.trying other).Fails ctx) {span span' : Span α}
    {ctx' ctx'' : Context τ}
    (ran : (attempt.trying (.choice (before ++ matcher :: after))).run ctx = .ok (span, ctx'))
    (ran' : (attempt.trying matcher).run ctx = .ok (span', ctx'')) (valid : span'.isValid = true) :
    span = span' ∧ SameState ctx' ctx'' := by
  obtain ⟨outcome, found, alone⟩ := Match.read_of_run tracks ran'
  cases alone with
  | failed _ => cases valid
  | matched tracks'' =>
      have refused' : ∀ other ∈ before, ∃ offset,
          (attempt.trying other).reading refs = .ok (.failed offset) := fun other member =>
        (Match.fails_iff (inside.trying other) tracks).mp (refused other member)
      obtain ⟨_, whole, answers⟩ := Match.read_of_run tracks ran
      rw [Match.choice_of_first refused' found] at whole
      cases whole
      cases answers with
      | matched tracks' => exact ⟨rfl, .of_tracks tracks' tracks''⟩

theorem Match.fails_of_forall₂ {alternatives : List (Matcher α τ attempt.Rule)} {offsets : List Nat}
    (inside : attempt.Inside) (tracks : ctx.Tracks refs trees builds)
    (refused : List.Forall₂ (fun matcher offset =>
      (attempt.trying matcher).reading refs = .ok (.failed offset)) alternatives offsets) :
    List.Forall₂ (fun matcher offset => ∃ ctx'',
      (attempt.trying matcher).run ctx = .ok (.failed attempt.source offset, ctx''))
      alternatives offsets := by
  refine refused.imp fun matcher offset read => ?_
  obtain ⟨⟨span, ctx''⟩, ran, answers⟩ := Match.run_of_read (inside.trying matcher) tracks read
  cases answers with
  | failed _ => exact ⟨ctx'', ran⟩

theorem Match.forall_fails {alternatives : List (Matcher α τ attempt.Rule)} {offsets : List Nat}
    (refused : List.Forall₂ (fun matcher offset => ∃ ctx'',
      (attempt.trying matcher).run ctx = .ok (.failed attempt.source offset, ctx''))
      alternatives offsets) :
    ∀ matcher ∈ alternatives, (attempt.trying matcher).Fails ctx := by
  induction refused with
  | nil => exact List.forall_mem_nil _
  | cons here _ ih =>
      obtain ⟨ctx'', ran⟩ := here
      exact List.forall_mem_cons.mpr ⟨⟨_, ctx'', ran, rfl⟩, ih⟩

theorem Match.decides {alternatives : List (Matcher α τ attempt.Rule)} (inside : attempt.Inside)
    (tracks : ctx.Tracks refs trees builds)
    (returns : ∀ matcher ∈ alternatives, (attempt.trying matcher).Returns ctx) :
    ∃ span ctx', (attempt.trying (.choice alternatives)).run ctx = .ok (span, ctx') ∧
      attempt.Decides alternatives ctx span ctx' := by
  have within := inside.trying (.choice alternatives)
  -- One alternative is the first to match, or all of them have failed.
  rcases Match.first_or_none fun matcher member =>
      (returns matcher member).reading (inside.trying matcher) tracks with
    ⟨before, matcher, after, next, new, stored, rfl, refused, found⟩ | ⟨offsets, refused⟩
  · obtain ⟨⟨span, ctx'⟩, ran, answers⟩ :=
      Match.run_of_read within tracks (Match.choice_of_first refused found)
    have member : matcher ∈ before ++ matcher :: after := by simp
    have succeeds : (attempt.trying matcher).Succeeds ctx :=
      (Match.succeeds_iff (inside.trying matcher) tracks).mpr ⟨_, _, _, found⟩
    have valid : span.isValid = true := by
      cases answers
      rfl
    refine ⟨span, ctx', ran, ?_, ?_, ?_, ?_⟩
    · exact ⟨fun _ => ⟨matcher, member, succeeds⟩, fun _ => valid⟩
    · rintro before' matcher' after' span' ctx'' split refused' ran' valid'
      rw [split] at ran
      exact Match.choice_follows inside tracks refused' ran ran' valid'
    · rw [valid]
      exact ⟨nofun, fun fail => absurd (fail matcher member) succeeds.not_fails⟩
    · rw [valid]
      exact nofun
  · have fails := Match.fails_of_forall₂ inside tracks refused
    have fail := Match.forall_fails fails
    obtain ⟨⟨span, ctx'⟩, ran, answers⟩ :=
      Match.run_of_read within tracks (Match.choice_of_none refused)
    have settles : ((attempt.trying (.choice alternatives)).action
        ⟨attempt.source, attempt.limit⟩).Settles :=
      Action.settles_choice (Matcher.evalAll_realizes (attempt.grammar.call_realizes attempt.depth)
        (attempt.grammar.advances_call attempt.depth) alternatives)
    cases answers with
    | failed _ =>
      refine ⟨_, ctx', ran, ?_, ?_, ?_, ?_⟩
      · refine ⟨nofun, ?_⟩
        rintro ⟨matcher, member, succeeds⟩
        exact absurd (fail matcher member) succeeds.not_fails
      · rintro before matcher after span' ctx'' rfl refused' ran' valid'
        exact Match.choice_follows inside tracks refused' ran ran' valid'
      · exact ⟨fun _ => fail, fun _ => rfl⟩
      · intro invalid
        exact ⟨Match.sameState_of_settles tracks settles ran invalid, offsets, fails, rfl⟩

/-! ## Attempts that leave no trace -/

theorem Match.upTo_leavesNoTrace {inner : Matcher α τ attempt.Rule} (inside : attempt.Inside)
    (tracks : ctx.Tracks refs trees builds)
    (returns : ∀ place, attempt.cursor ≤ place → place ≤ attempt.limit →
      (∀ earlier, attempt.cursor ≤ earlier → earlier < place →
        ((attempt.trying inner).startingAt earlier).Fails ctx) →
      ((attempt.trying inner).startingAt place).Returns ctx) :
    (attempt.trying (.upTo inner)).LeavesNoTrace ctx := by
  have realizes := (attempt.trying inner).realizes ⟨attempt.source, attempt.limit⟩
  refine Match.leavesNoTrace_of_restores (inside.trying (.upTo inner)) tracks ?_
    fun builds ctx refs trees cursor =>
      realizes.probe_restores.upTo _ builds ctx refs trees cursor
  refine Reading.upTo_returns (attempt.limit - attempt.cursor) fun place lower upper refused => ?_
  have upper' : place ≤ attempt.limit :=
    Nat.le_trans upper (Nat.le_of_eq (Nat.add_sub_cancel' inside.1))
  refine (returns place lower upper' fun earlier lower' upper'' => ?_).reading
    ⟨upper', inside.2⟩ tracks
  have bounded : earlier ≤ attempt.limit := Nat.le_of_lt (Nat.lt_of_lt_of_le upper'' upper')
  exact (Match.fails_iff ((inside.trying inner).startingAt bounded) tracks).mpr
    (refused earlier lower' upper'')

/-- On the context of every session, what looks ahead leaves the backreferences and the forest as
they were, and so does what fails: an option, a node, a promotion and a choice.  The alternatives of
a choice are all run on the same context, and the choice answers as the first that matches does
alone, or fails where the furthest of them does. -/
theorem abandoned_attempts_leave_no_trace {start : Context τ} {steps : List (Step α τ)}
    (fresh : Fresh builds start) (reached : run steps start = .ok ctx) (attempt : Match α τ)
    (inside : attempt.Inside) :
    (∀ inner, (attempt.trying inner).Returns ctx →
      (attempt.trying (.ahead inner)).LeavesNoTrace ctx ∧
      (attempt.trying (.notAhead inner)).LeavesNoTrace ctx ∧
      ((attempt.trying inner).Fails ctx → (attempt.trying (.opt inner)).LeavesNoTrace ctx) ∧
      (∀ tag bookmark, (attempt.trying (.node tag bookmark inner)).CleansUp ctx) ∧
      (attempt.trying (.promote inner)).CleansUp ctx) ∧
    (∀ inner, (∀ place, attempt.cursor ≤ place → place ≤ attempt.limit →
        (∀ earlier, attempt.cursor ≤ earlier → earlier < place →
          ((attempt.trying inner).startingAt earlier).Fails ctx) →
        ((attempt.trying inner).startingAt place).Returns ctx) →
      (attempt.trying (.upTo inner)).LeavesNoTrace ctx) ∧
    ∀ alternatives : List (Matcher α τ attempt.Rule),
      (∀ matcher ∈ alternatives, (attempt.trying matcher).Returns ctx) →
      ∃ span ctx', (attempt.trying (.choice alternatives)).run ctx = .ok (span, ctx') ∧
        attempt.Decides alternatives ctx span ctx' := by
  obtain ⟨refs, trees, tracks⟩ := tracks_run reached fresh.tracks
  refine ⟨?_, fun inner => Match.upTo_leavesNoTrace inside tracks, fun alternatives =>
    Match.decides inside tracks⟩
  intro inner returns
  have realizes := (attempt.trying inner).realizes ⟨attempt.source, attempt.limit⟩
  have read := returns.reading (inside.trying inner) tracks
  refine ⟨?_, ?_, ?_, ?_, ?_⟩
  · exact Match.leavesNoTrace_of_restores (inside.trying (.ahead inner)) tracks
      (Reading.ahead_returns read) realizes.probe_restores.ahead
  · exact Match.leavesNoTrace_of_restores (inside.trying (.notAhead inner)) tracks
      (Reading.notAhead_returns read) realizes.probe_restores.notAhead
  · intro fails
    obtain ⟨offset, failed⟩ :=
      (Match.fails_iff (inside.trying inner) tracks).mp fails
    exact Match.opt_leavesNoTrace inside tracks failed
  · intro tag bookmark
    exact Match.cleansUp_of_settles (inside.trying (.node tag bookmark inner)) tracks
      (Reading.node_returns read tag bookmark) (realizes.attempt_settles.node tag bookmark)
  · exact Match.cleansUp_of_settles (inside.trying (.promote inner)) tracks
      (Reading.promote_returns read) realizes.attempt_settles.promote

/-- An alternative that stores a range and builds a node before it fails. -/
def storing : Matcher UInt8 Nat Empty :=
  .seq [.store "n" (.node (some 1) false (.literal [1])), .literal [3]]

def instead : Matcher UInt8 Nat Empty :=
  .seq [.node (some 2) false (.literal [1]), .literal [2]]

theorem abandoned_attempts_leave_no_trace_storing :
    ∃ start ctx : Context Nat, Fresh true start ∧ run [.matching adopting] start = .ok ctx ∧
      adopting.Inside ∧ (adopting.trying storing).Returns ctx ∧
      (∀ place ≤ 2, ((adopting.trying instead).startingAt place).Returns ctx) ∧
      (∀ matcher ∈ [storing, instead], (adopting.trying matcher).Returns ctx) ∧
      (adopting.trying (.ahead storing)).LeavesNoTrace ctx ∧
      (adopting.trying (.promote storing)).CleansUp ctx ∧
      (adopting.trying (.upTo instead)).LeavesNoTrace ctx ∧
      ∃ span ctx', (adopting.trying (.choice [storing, instead])).run ctx = .ok (span, ctx') ∧
        adopting.Decides [storing, instead] ctx span ctx' := by
  have returns : (run [.matching adopting] smallTree).toBool = true := by decide +kernel
  obtain ⟨ctx, reached⟩ := Fault.exists_of_toBool returns
  have each : ∀ matcher ∈ [storing, instead],
      (run [.matching adopting] smallTree >>= (adopting.trying matcher).run).toBool = true := by
    decide +kernel
  have everywhere : ∀ place < 3, (run [.matching adopting] smallTree >>=
      ((adopting.trying instead).startingAt place).run).toBool = true := by
    decide +kernel
  rw [reached] at each everywhere
  have alone : ∀ matcher ∈ [storing, instead], (adopting.trying matcher).Returns ctx :=
    fun matcher member => Fault.exists_of_toBool (each matcher member)
  have places : ∀ place ≤ 2, ((adopting.trying instead).startingAt place).Returns ctx :=
    fun place inside => Fault.exists_of_toBool (everywhere place (Nat.lt_succ_of_le inside))
  have inside : adopting.Inside := ⟨by decide, by decide⟩
  obtain ⟨attempts, searches, choices⟩ :=
    abandoned_attempts_leave_no_trace fresh_smallTree reached adopting inside
  obtain ⟨looks, -, -, -, promotes⟩ := attempts storing (alone storing (by simp))
  exact ⟨_, ctx, fresh_smallTree, reached, inside, alone storing (by simp), places, alone, looks,
    promotes, searches instead fun place _ upper _ => places place upper,
    choices [storing, instead] alone⟩

end Session

end PegForest
