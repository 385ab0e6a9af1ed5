import PegForest.Proofs.Reading.Delimit
import PegForest.Proofs.Reading.Repeat
import PegForest.Proofs.Session.Answer

/-!
# Repetitions are greedy, and counted ones unroll

What a repetition repeats must not ask for backreferences, or else one context could match where
another does not.  It may store them, build nodes and call rules; its answer at a place is then the
same in all contexts of all sessions, apart from what it leaves in them.

So a repetition that has stopped has stopped for good: at its end there is nothing left to take, for
whoever tries.  And a counted repetition answers as its unrolling does, although it leaves out the
rounds after one that matches nothing.
-/

set_option autoImplicit false

namespace PegForest.Session

variable {α τ : Type} [Atom α] {attempt : Match α τ} {builds : Bool} {ctx : Context τ}
  {refs : List Backref} {trees : List (MarkedTree τ)} {place : Nat}

def Match.EndsAt (attempt : Match α τ) (place : Nat) (ctx : Context τ) : Prop :=
  ∃ ctx', attempt.run ctx = .ok (.valid attempt.source place attempt.limit, ctx')

def Match.EndsOnlyAt (attempt : Match α τ) (place : Nat) (ctx : Context τ) : Prop :=
  ∃ span ctx', attempt.run ctx = .ok (span, ctx') ∧
    (span.isValid = true → span = .valid attempt.source place attempt.limit)

/-- On the contexts of all sessions, the match fails at the place or matches nothing there. -/
def Match.Spent (attempt : Match α τ) (place : Nat) : Prop :=
  ∀ (builds : Bool) (start ctx : Context τ) (steps : List (Step α τ)), Fresh builds start →
    Session.run steps start = .ok ctx → (attempt.startingAt place).EndsOnlyAt place ctx

def Match.EndsAs (attempt other : Match α τ) (ctx : Context τ) : Prop :=
  ∃ span ctx₁ ctx₂, attempt.run ctx = .ok (span, ctx₁) ∧ other.run ctx = .ok (span, ctx₂)

/-! ## Answers and readings -/

theorem Match.reads_blind (attempt : Match α τ)
    (free : ∀ inner, attempt.grammar.Uses attempt.matcher inner → inner.recalls = false) :
    (attempt.reads attempt.matcher).Blind Eq attempt.limit :=
  Grammar.reading_blind free attempt.order attempt.depth ⟨attempt.source, attempt.limit⟩

theorem Match.endsAt_of_read {new : List (MarkedTree τ)} {stored : List Backref}
    (inside : attempt.Inside) (tracks : ctx.Tracks refs trees builds)
    (read : attempt.reading refs = .ok (.matched place new stored)) : attempt.EndsAt place ctx := by
  obtain ⟨⟨span, ctx'⟩, ran, answers⟩ := Match.run_of_read inside tracks read
  cases answers with
  | matched _ => exact ⟨ctx', ran⟩

theorem Match.endsOnlyAt_of_read {outcome : Outcome τ} (inside : attempt.Inside)
    (tracks : ctx.Tracks refs trees builds) (read : attempt.reading refs = .ok outcome)
    (rests : outcome.Rests place) : attempt.EndsOnlyAt place ctx := by
  obtain ⟨⟨span, ctx'⟩, ran, answers⟩ := Match.run_of_read inside tracks read
  cases answers with
  | matched _ =>
      cases rests
      exact ⟨_, ctx', ran, fun _ => rfl⟩
  | failed _ => exact ⟨_, ctx', ran, nofun⟩

theorem Match.spent_of_idle (inside : attempt.Inside) (bounded : place ≤ attempt.limit)
    (idle : (attempt.reads attempt.matcher).Idle place) : attempt.Spent place := by
  intro builds start ctx steps fresh reached
  obtain ⟨refs, trees, tracks⟩ := tracks_run reached fresh.tracks
  obtain ⟨outcome, read, rests⟩ := idle refs
  exact Match.endsOnlyAt_of_read (inside.startingAt bounded) tracks read rests

theorem Match.endsAs_of_concur {matcher other : Matcher α τ attempt.Rule} {limit cursor : Nat}
    (inside : attempt.Inside) (tracks : ctx.Tracks refs trees builds)
    (concur : Concur (fun _ _ => False) ((Likeness.course fun _ _ => False).Outcomes limit cursor)
      ((attempt.trying matcher).reading refs) ((attempt.trying other).reading refs)) :
    (attempt.trying matcher).EndsAs (attempt.trying other) ctx := by
  cases read : (attempt.trying matcher).reading refs with
  | error fault =>
      rw [read] at concur
      obtain ⟨_, _, impossible⟩ := concur.of_error
      exact impossible.elim
  | ok outcome =>
      rw [read] at concur
      obtain ⟨outcome', read', related⟩ := concur.of_ok
      obtain ⟨⟨span, ctx₁⟩, ran, answers⟩ := Match.run_of_read (inside.trying matcher) tracks read
      obtain ⟨⟨span', ctx₂⟩, ran', answers'⟩ := Match.run_of_read (inside.trying other) tracks read'
      cases related with
      | matched _ _ _ _ =>
          cases answers
          cases answers'
          exact ⟨_, ctx₁, ctx₂, ran, ran'⟩
      | failed _ =>
          cases answers
          cases answers'
          exact ⟨_, ctx₁, ctx₂, ran, ran'⟩

/-! ## Greedy repetitions -/

/-- What follows a repetition of itself fails or ends where that has ended. -/
theorem Match.endsOnlyAt_after {loop : Matcher α τ attempt.Rule} {new : List (MarkedTree τ)}
    {stored : List Backref} (inside : attempt.Inside) (tracks : ctx.Tracks refs trees builds)
    (read : attempt.reads loop refs attempt.cursor = .ok (.matched place new stored))
    (idle : (attempt.reads attempt.matcher).Idle place) :
    (attempt.trying (.seq [loop, attempt.matcher])).EndsOnlyAt place ctx := by
  have again : (Reading.sequence [attempt.reads attempt.matcher]).Idle place := by
    simpa only [Reading.sequence, Reading.andThen_succeed] using idle
  obtain ⟨outcome, read', rests⟩ := again.andThen read
  have whole := (attempt.seq_reading [loop, attempt.matcher] refs).trans read'
  exact Match.endsOnlyAt_of_read (inside.trying _) tracks whole rests

/-- On the context of every session, a greedy repetition of what asks for no backreference gives
nothing back and leaves nothing.  Where it ends, the repeated matcher is spent in all contexts; once
more it fails or ends there, and so do repetitions of the repetition. -/
theorem greedy_repetition_is_final {start : Context τ} {steps : List (Step α τ)}
    (fresh : Fresh builds start) (reached : run steps start = .ok ctx) (attempt : Match α τ)
    (free : ∀ inner, attempt.grammar.Uses attempt.matcher inner → inner.recalls = false) :
    (∀ span ctx', (attempt.trying (.star attempt.matcher)).run ctx = .ok (span, ctx') →
      ∃ place, span = .valid attempt.source place attempt.limit ∧ attempt.Spent place ∧
        (attempt.trying (.seq [.star attempt.matcher, attempt.matcher])).EndsOnlyAt place ctx ∧
        (attempt.trying (.star (.star attempt.matcher))).EndsAt place ctx ∧
        (attempt.trying (.star (.plus attempt.matcher))).EndsAt place ctx) ∧
    (∀ span ctx', (attempt.trying (.plus attempt.matcher)).run ctx = .ok (span, ctx') →
      (span.isValid = false →
        (attempt.trying (.seq [.plus attempt.matcher, attempt.matcher])).Fails ctx) ∧
      ∀ place, span = .valid attempt.source place attempt.limit → attempt.Spent place ∧
        (attempt.trying (.seq [.plus attempt.matcher, attempt.matcher])).EndsOnlyAt place ctx) := by
  obtain ⟨refs, trees, tracks⟩ := tracks_run reached fresh.tracks
  have blind := attempt.reads_blind free
  constructor
  · intro span ctx' ran
    have inside : attempt.Inside := (Match.run_eq_ok.mp ran).1
    obtain ⟨outcome, read, answers⟩ := Match.read_of_run tracks ran
    -- A greedy repetition never fails, so only the place where it ends is of interest.
    cases answers with
    | failed _ => exact absurd read (Reading.neverFails_greedy _ .exhausted _ refs _ _)
    | @matched _ place new stored _ =>
        obtain ⟨-, bounded, idle⟩ := blind.endsIdle_star _ _ _ _ _ inside.1 read
        obtain ⟨_, _, twice⟩ := blind.star_star inside.1 read
        obtain ⟨_, _, twice'⟩ := blind.star_plus inside.1 read
        exact ⟨place, rfl, Match.spent_of_idle inside bounded idle,
          Match.endsOnlyAt_after inside tracks read idle,
          Match.endsAt_of_read (inside.trying _) tracks twice,
          Match.endsAt_of_read (inside.trying _) tracks twice'⟩
  · intro span ctx' ran
    have inside : attempt.Inside := (Match.run_eq_ok.mp ran).1
    obtain ⟨outcome, read, answers⟩ := Match.read_of_run tracks ran
    cases answers with
    | failed _ =>
        refine ⟨fun _ => ?_, nofun⟩
        have whole := (attempt.seq_reading [.plus attempt.matcher, attempt.matcher] refs).trans
          (Reading.andThen_of_failed read)
        exact (Match.fails_iff (inside.trying _) tracks).mpr ⟨_, whole⟩
    | matched _ =>
        refine ⟨nofun, ?_⟩
        rintro place ⟨⟩
        obtain ⟨-, bounded, idle⟩ := blind.endsIdle_plus _ _ _ _ _ inside.1 read
        exact ⟨Match.spent_of_idle inside bounded idle,
          Match.endsOnlyAt_after inside tracks read idle⟩

def ones : Match UInt8 Nat :=
  byteMatch (.choice [.node (some 1) false (.store "n" (.literal [1])), .endOfInput]) #[1, 1]

theorem ones_free : ∀ inner, ones.grammar.Uses ones.matcher inner → inner.recalls = false := by
  intro inner uses
  have free : ones.matcher.Within (·.recalls = false) 4 := by
    simp [Matcher.Within, Matcher.parts, ones, byteMatch, Matcher.recalls]
  exact uses.of_every (fun rule => rule.elim) (.of_within free)

theorem greedy_repetition_is_final_ones :
    ∃ start ctx : Context Nat, Fresh true start ∧ run [.matching abandoned] start = .ok ctx ∧
      (∀ inner, ones.grammar.Uses ones.matcher inner → inner.recalls = false) ∧
      ∃ span ctx' place, (ones.trying (.star ones.matcher)).run ctx = .ok (span, ctx') ∧
        span = .valid ones.source place ones.limit ∧ ones.Spent place ∧
        (ones.trying (.seq [.star ones.matcher, ones.matcher])).EndsOnlyAt place ctx := by
  obtain ⟨ctx, reached⟩ := abandoned_returns
  have returns : (run [.matching abandoned] smallTree >>=
      (ones.trying (.star ones.matcher)).run).toBool = true := by decide +kernel
  rw [reached] at returns
  obtain ⟨⟨span, ctx'⟩, ran⟩ := Fault.exists_of_toBool returns
  obtain ⟨stars, -⟩ := greedy_repetition_is_final fresh_smallTree reached ones ones_free
  obtain ⟨place, ended, spent, after, -, -⟩ := stars span ctx' ran
  exact ⟨_, ctx, fresh_smallTree, reached, ones_free, span, ctx', place, ran, ended, spent, after⟩

/-! ## Counted repetitions -/

theorem Match.unrolled_reading (attempt : Match α τ) (matcher : Matcher α τ attempt.Rule)
    (least more : Nat) (refs : List Backref) :
    (attempt.trying (.seq (List.replicate least matcher ++
      List.replicate more (.opt matcher)))).reading refs =
        (attempt.reads matcher).unrolled least more refs attempt.cursor := by
  rw [attempt.seq_reading, List.map_append, List.map_replicate, List.map_replicate]
  rfl

/-- On the context of every session, a counted repetition of what asks for no backreference and
always returns answers as its unrolling: as many copies as are demanded and then as many options as
are left.  Where there are no more atoms than rounds, it answers as a repetition without a bound. -/
theorem counted_repetition_unrolls {start : Context τ} {steps : List (Step α τ)}
    (fresh : Fresh builds start) (reached : run steps start = .ok ctx) (attempt : Match α τ)
    (inside : attempt.Inside)
    (free : ∀ inner, attempt.grammar.Uses attempt.matcher inner → inner.recalls = false)
    (returns : ∀ place ≤ attempt.limit, (attempt.startingAt place).Returns ctx) :
    (∀ least most, least ≤ most →
      (attempt.trying (.timesBetween least most attempt.matcher)).EndsAs
        (attempt.trying (.seq (List.replicate least attempt.matcher ++
          List.replicate (most - least) (.opt attempt.matcher)))) ctx) ∧
    (∀ count,
      (attempt.trying (.times count attempt.matcher)).EndsAs
        (attempt.trying (.timesBetween count count attempt.matcher)) ctx ∧
      (attempt.trying (.times count attempt.matcher)).EndsAs
        (attempt.trying (.seq (List.replicate count attempt.matcher))) ctx) ∧
    (∀ most, attempt.limit - attempt.cursor ≤ most →
      (attempt.trying (.timesBetween 0 most attempt.matcher)).EndsAs
        (attempt.trying (.star attempt.matcher)) ctx ∧
      (1 ≤ most →
        (attempt.trying (.timesBetween 1 most attempt.matcher)).EndsAs
          (attempt.trying (.plus attempt.matcher)) ctx)) := by
  obtain ⟨refs, trees, tracks⟩ := tracks_run reached fresh.tracks
  have blind : (attempt.reads attempt.matcher).Blind (fun _ _ => False) attempt.limit :=
    (attempt.reads_blind free).never_stops fun place within =>
      (returns place within).reading (inside.startingAt within) tracks
  refine ⟨?_, ?_, ?_⟩
  · intro least most _
    apply Match.endsAs_of_concur inside tracks
    rw [attempt.unrolled_reading]
    exact blind.atLeast_unrolled least (most - least) refs refs attempt.cursor inside.1 trivial
  · intro count
    constructor
    · apply Match.endsAs_of_concur inside tracks
      have bounded := blind.atLeast_unrolled count 0 refs refs attempt.cursor inside.1 trivial
      rw [← Reading.times_eq_unrolled, ← Nat.sub_self count] at bounded
      exact bounded.symm.mono fun _ _ related => related.course_symm
    · apply Match.endsAs_of_concur inside tracks
      have copies := attempt.unrolled_reading attempt.matcher count 0 refs
      rw [List.replicate_zero, List.append_nil, ← Reading.times_eq_unrolled] at copies
      rw [copies]
      exact blind.times count refs refs attempt.cursor inside.1 trivial
  · intro most enough
    constructor
    · apply Match.endsAs_of_concur inside tracks
      exact blind.bounded_alike_star inside.1 enough refs refs
    · intro positive
      apply Match.endsAs_of_concur inside tracks
      exact blind.bounded_alike_plus inside.1 (by omega) refs refs

theorem counted_repetition_unrolls_ones :
    ∃ start ctx : Context Nat, Fresh true start ∧ run [.matching abandoned] start = .ok ctx ∧
      ones.Inside ∧ (∀ inner, ones.grammar.Uses ones.matcher inner → inner.recalls = false) ∧
      (∀ place ≤ ones.limit, (ones.startingAt place).Returns ctx) ∧
      (ones.trying (.timesBetween 1 4 ones.matcher)).EndsAs
        (ones.trying (.seq [ones.matcher, .opt ones.matcher, .opt ones.matcher,
          .opt ones.matcher])) ctx ∧
      (ones.trying (.times 3 ones.matcher)).EndsAs
        (ones.trying (.timesBetween 3 3 ones.matcher)) ctx ∧
      (ones.trying (.timesBetween 1 2 ones.matcher)).EndsAs
        (ones.trying (.plus ones.matcher)) ctx := by
  obtain ⟨ctx, reached⟩ := abandoned_returns
  have everywhere : ∀ place < 3, (run [.matching abandoned] smallTree >>=
      (ones.startingAt place).run).toBool = true := by decide +kernel
  rw [reached] at everywhere
  have places : ∀ place ≤ ones.limit, (ones.startingAt place).Returns ctx :=
    fun place within => Fault.exists_of_toBool (everywhere place (Nat.lt_succ_of_le within))
  have inside : ones.Inside := ⟨by decide, by decide⟩
  obtain ⟨ranges, counts, bounds⟩ :=
    counted_repetition_unrolls fresh_smallTree reached ones inside ones_free places
  exact ⟨_, ctx, fresh_smallTree, reached, inside, ones_free, places, ranges 1 4 (by decide),
    (counts 3).1, (bounds 2 (by decide)).2 (by decide)⟩

end PegForest.Session
