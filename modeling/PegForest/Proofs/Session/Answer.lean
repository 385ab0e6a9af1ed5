import PegForest.Proofs.Refinement

/-!
# Matches on one context

Several matches may begin at one place of one context: each of them has a matcher of its own, and
all of them share the rules, the order and the input.  What such a match answers is what its reading
says of the backreferences that the context tracks, so matches that are read alike answer alike, and
two contexts that track the same are in the same state.
-/

set_option autoImplicit false

namespace PegForest.Session

variable {α τ : Type}

/-- Two contexts with the same backreferences and the same nodes. -/
structure SameState (ctx other : Context τ) : Prop where
  refs : ctx.refs = other.refs
  forest : Option.Rel SameNodes ctx.forest other.forest

def Match.trying (attempt : Match α τ) (matcher : Matcher α τ attempt.Rule) : Match α τ :=
  { attempt with matcher }

def Match.startingAt (attempt : Match α τ) (cursor : Nat) : Match α τ :=
  { attempt with cursor }

def Match.Inside (attempt : Match α τ) : Prop :=
  attempt.cursor ≤ attempt.limit ∧ attempt.limit ≤ attempt.source.size

/-- What an outcome tells about a span and the context that comes with it. -/
inductive Answers (source : Array α) (limit : Nat) (builds : Bool) (refs : List Backref)
    (trees : List (MarkedTree τ)) : Span α × Context τ → Outcome τ → Prop where
  | matched {ctx : Context τ} {next : Nat} {new : List (MarkedTree τ)} {stored : List Backref}
      (tracks : ctx.Tracks (refs ++ stored) (trees ++ new) builds) :
      Answers source limit builds refs trees (.valid source next limit, ctx)
        (.matched next new stored)
  | failed {ctx : Context τ} {offset : Nat} {left : List (MarkedTree τ)} {forgotten : List Backref}
      (tracks : ctx.Tracks (refs ++ forgotten) (trees ++ left) builds) :
      Answers source limit builds refs trees (.failed source offset, ctx) (.failed offset)

variable {builds : Bool} {ctx ctx' : Context τ} {refs : List Backref} {trees : List (MarkedTree τ)}

theorem SameState.of_tracks (tracks : ctx.Tracks refs trees builds)
    (tracks' : ctx'.Tracks refs trees builds) : SameState ctx ctx' := by
  refine ⟨tracks.refs_eq.trans tracks'.refs_eq.symm, ?_⟩
  cases tracks with
  | tree represents _ =>
      cases tracks' with
      | tree represents' _ => exact .some (.of_represents represents represents')
  | text _ =>
      cases tracks' with
      | text _ => exact .none

variable {attempt : Match α τ}

theorem Match.Inside.trying (inside : attempt.Inside) (matcher : Matcher α τ attempt.Rule) :
    (attempt.trying matcher).Inside :=
  inside

theorem Match.Inside.startingAt {cursor : Nat} (inside : attempt.Inside)
    (bounded : cursor ≤ attempt.limit) : (attempt.startingAt cursor).Inside :=
  ⟨bounded, inside.2⟩

variable [Atom α]

def Match.Returns (attempt : Match α τ) (ctx : Context τ) : Prop :=
  ∃ answer, attempt.run ctx = .ok answer

def Match.Succeeds (attempt : Match α τ) (ctx : Context τ) : Prop :=
  ∃ span ctx', attempt.run ctx = .ok (span, ctx') ∧ span.isValid = true

def Match.Fails (attempt : Match α τ) (ctx : Context τ) : Prop :=
  ∃ span ctx', attempt.run ctx = .ok (span, ctx') ∧ span.isValid = false

theorem Match.Succeeds.not_fails (succeeds : attempt.Succeeds ctx) : ¬attempt.Fails ctx := by
  obtain ⟨span, ctx', ran, valid⟩ := succeeds
  rintro ⟨span', ctx'', ran', invalid⟩
  rw [ran] at ran'
  cases ran'
  rw [valid] at invalid
  cases invalid

theorem Match.Fails.returns (fails : attempt.Fails ctx) : attempt.Returns ctx := by
  obtain ⟨span, ctx', ran, -⟩ := fails
  exact ⟨_, ran⟩

def Match.reading (attempt : Match α τ) (refs : List Backref) : Except Fault (Outcome τ) :=
  attempt.toTask.reading ⟨attempt.source, attempt.limit⟩ refs attempt.cursor

def Match.reads (attempt : Match α τ) (matcher : Matcher α τ attempt.Rule) : Reading τ :=
  (attempt.trying matcher).toTask.reading ⟨attempt.source, attempt.limit⟩

theorem Match.seq_reading (attempt : Match α τ) (steps : List (Matcher α τ attempt.Rule))
    (refs : List Backref) :
    (attempt.trying (.seq steps)).reading refs =
      Reading.sequence (steps.map attempt.reads) refs attempt.cursor :=
  congrArg (fun readings => Reading.sequence readings refs attempt.cursor)
    (Matcher.readings_eq_map _ _ _ steps)

/-- A match answers as it is read. -/
theorem Match.run_reads (inside : attempt.Inside) (tracks : ctx.Tracks refs trees builds) :
    Agree (Answers attempt.source attempt.limit builds refs trees) (attempt.run ctx)
      (attempt.reading refs) := by
  rw [attempt.run_of_inside inside, ← bind_pure (attempt.reading refs)]
  refine .bind (attempt.realizes _ builds ctx refs trees attempt.cursor tracks) ?_
  rintro _ _ - (⟨tracks'⟩ | ⟨tracks'⟩)
  · exact .ok (.matched tracks')
  · exact .ok (.failed tracks')

theorem Match.read_of_run {answer : Span α × Context τ} (tracks : ctx.Tracks refs trees builds)
    (ran : attempt.run ctx = .ok answer) :
    ∃ outcome, attempt.reading refs = .ok outcome ∧
      Answers attempt.source attempt.limit builds refs trees answer outcome := by
  have agree := Match.run_reads (Match.run_eq_ok.mp ran).1 tracks
  rw [ran] at agree
  exact agree.of_ok

theorem Match.run_of_read {outcome : Outcome τ} (inside : attempt.Inside)
    (tracks : ctx.Tracks refs trees builds) (read : attempt.reading refs = .ok outcome) :
    ∃ answer, attempt.run ctx = .ok answer ∧
      Answers attempt.source attempt.limit builds refs trees answer outcome := by
  have agree := Match.run_reads inside tracks
  rw [read] at agree
  exact agree.symm.of_ok

theorem Match.Returns.reading (returns : attempt.Returns ctx) (inside : attempt.Inside)
    (tracks : ctx.Tracks refs trees builds) : ∃ outcome, attempt.reading refs = .ok outcome := by
  obtain ⟨answer, ran⟩ := returns
  have agree := Match.run_reads inside tracks
  rw [ran] at agree
  obtain ⟨outcome, read, -⟩ := agree.of_ok
  exact ⟨outcome, read⟩

theorem Match.succeeds_iff (inside : attempt.Inside) (tracks : ctx.Tracks refs trees builds) :
    attempt.Succeeds ctx ↔
      ∃ next new stored, attempt.reading refs = .ok (.matched next new stored) := by
  constructor
  · rintro ⟨span, ctx', ran, valid⟩
    obtain ⟨outcome, read, answers⟩ := Match.read_of_run tracks ran
    cases answers with
    | matched _ => exact ⟨_, _, _, read⟩
    | failed _ => cases valid
  · rintro ⟨next, new, stored, read⟩
    obtain ⟨⟨span, ctx'⟩, ran, answers⟩ := Match.run_of_read inside tracks read
    cases answers with
    | matched _ => exact ⟨_, _, ran, rfl⟩

theorem Match.fails_iff (inside : attempt.Inside) (tracks : ctx.Tracks refs trees builds) :
    attempt.Fails ctx ↔ ∃ offset, attempt.reading refs = .ok (.failed offset) := by
  constructor
  · rintro ⟨span, ctx', ran, invalid⟩
    obtain ⟨outcome, read, answers⟩ := Match.read_of_run tracks ran
    cases answers with
    | matched _ => cases invalid
    | failed _ => exact ⟨_, read⟩
  · rintro ⟨offset, read⟩
    obtain ⟨⟨span, ctx'⟩, ran, answers⟩ := Match.run_of_read inside tracks read
    cases answers with
    | failed _ => exact ⟨_, _, ran, rfl⟩

end PegForest.Session
