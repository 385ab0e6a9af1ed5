import PegForest.Proofs.Session

/-!
# Matches refine readings

The context of a session tracks one list of backreferences and one list of trees.  A match that
returns answers as its reading does, and the reading does not depend on the depth.  After a match
the new trees and backreferences stand behind the old ones; after a failure the old ones are still
there, with something left behind them that nobody asked for.
-/

set_option autoImplicit false

namespace PegForest

open MarkedTree Session

def Outcome.toSpan {α τ : Type} (source : Array α) (limit : Nat) : Outcome τ → Span α
  | .matched cursor _ _ => .valid source cursor limit
  | .failed offset => .failed source offset

/-- What an outcome makes of the backreferences and trees of a tree context. -/
def Outcome.Extends {τ : Type} (refs : List Backref) (trees : List (MarkedTree τ)) (ctx : Context τ) :
    Outcome τ → Prop
  | .matched _ new stored => ctx.Tracks (refs ++ stored) (trees ++ new) true
  | .failed _ => ∃ left forgotten, ctx.Tracks (refs ++ forgotten) (trees ++ left) true

variable {α τ : Type}

/-- A tree context tracks one list of backreferences and one list of trees. -/
theorem Context.Tracks.unique {ctx : Context τ} {refs refs' : List Backref}
    {trees trees' : List (MarkedTree τ)} (tracks : ctx.Tracks refs trees true)
    (tracks' : ctx.Tracks refs' trees' true) : refs' = refs ∧ trees' = trees := by
  constructor
  · have same := tracks'.refs_eq.symm.trans tracks.refs_eq
    simpa using same
  · cases tracks with
    | tree represents _ =>
        cases tracks' with
        | tree represents' _ => exact represents'.unique represents

theorem Tells.extends {refs : List Backref} {trees : List (MarkedTree τ)} {verdict : Verdict}
    {ctx : Context τ} {outcome : Outcome τ}
    (tells : Tells true refs trees (verdict, ctx) outcome) (source : Array α) (limit : Nat) :
    verdict.toSpan source limit = outcome.toSpan source limit ∧ outcome.Extends refs trees ctx := by
  cases tells with
  | matched tracks => exact ⟨rfl, tracks⟩
  | failed tracks => exact ⟨rfl, _, _, tracks⟩

variable [Atom α]

/-- On the context of every session, a match that returns gives the span of its reading and adds to
the context what its reading adds. -/
theorem match_refines_reading {capacity : Nat} {start ctx ctx' : Context τ}
    {steps : List (Step α τ)} {attempt : Match α τ} {span : Span α}
    (opened : Context.tree capacity = .ok start) (reached : run steps start = .ok ctx)
    (returned : attempt.run ctx = .ok (span, ctx')) :
    ∃ refs trees,
      (∀ refs' trees', ctx.Tracks refs' trees' true ↔ refs' = refs ∧ trees' = trees) ∧
      ∃ outcome,
        (∀ deeper, attempt.depth ≤ deeper →
          attempt.grammar.reading attempt.order deeper ⟨attempt.source, attempt.limit⟩
            attempt.matcher refs attempt.cursor = .ok outcome) ∧
        span = outcome.toSpan attempt.source attempt.limit ∧ outcome.Extends refs trees ctx' := by
  have fresh : Fresh true start := .tree capacity opened
  obtain ⟨refs, trees, tracks⟩ := tracks_run reached fresh.tracks
  obtain ⟨-, verdict, acted, rfl⟩ := Match.run_eq_ok.mp returned
  have agree := attempt.realizes ⟨attempt.source, attempt.limit⟩ true ctx refs trees attempt.cursor
    tracks
  rw [acted] at agree
  obtain ⟨outcome, read, tells⟩ := agree.of_ok
  obtain ⟨spans, extends_⟩ := tells.extends attempt.source attempt.limit
  refine ⟨refs, trees, ?_, outcome, ?_, spans, extends_⟩
  · intro refs' trees'
    constructor
    · intro tracks'
      exact tracks.unique tracks'
    · rintro ⟨rfl, rfl⟩
      exact tracks
  · intro deeper deep
    exact attempt.grammar.reading_eq_of_le deep read

theorem match_refines_reading_adopting :
    ∃ start ctx ctx' : Context Nat, ∃ span : Span UInt8, Context.tree 2 = .ok start ∧
      run [.matching abandoned] start = .ok ctx ∧ adopting.run ctx = .ok (span, ctx') ∧
      ∃ refs trees,
        (∀ refs' trees', ctx.Tracks refs' trees' true ↔ refs' = refs ∧ trees' = trees) ∧
        ∃ outcome,
          (∀ deeper, adopting.depth ≤ deeper →
            adopting.grammar.reading adopting.order deeper ⟨adopting.source, adopting.limit⟩
              adopting.matcher refs adopting.cursor = .ok outcome) ∧
          span = outcome.toSpan adopting.source adopting.limit ∧ outcome.Extends refs trees ctx' := by
  have returns : (run [.matching abandoned] smallTree >>= adopting.run).toBool = true := by
    decide +kernel
  obtain ⟨⟨span, ctx'⟩, both⟩ := Fault.exists_of_toBool returns
  obtain ⟨ctx, reached, returned⟩ := Fault.bind_eq_ok.mp both
  exact ⟨_, ctx, ctx', span, opened_smallTree, reached, returned,
    match_refines_reading opened_smallTree reached returned⟩

end PegForest
