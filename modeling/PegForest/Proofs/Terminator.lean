import PegForest.Proofs.Action.Probe
import PegForest.Proofs.Session.Answer
import PegForest.Proofs.Session.Tally
import PegForest.Proofs.SpanContract

/-!
# Searches find the first terminator

A search asks for a terminator at one place after another.  Each probe may build nodes and store
backreferences before it is taken back, but the next probe sees nothing of it: what counts at every
place is what the terminator does there on the context on which the search began.
-/

set_option autoImplicit false

namespace PegForest.Session

variable {α τ : Type} [Atom α] {attempt : Match α τ} {ctx : Context τ} {place : Nat}

/-- The match succeeds at the place, and fails at all places before it from its own place on. -/
structure Match.FirstAt (attempt : Match α τ) (place : Nat) (ctx : Context τ) : Prop where
  lower : attempt.cursor ≤ place
  upper : place ≤ attempt.limit
  succeeds : (attempt.startingAt place).Succeeds ctx
  refused : ∀ earlier, attempt.cursor ≤ earlier → earlier < place →
    (attempt.startingAt earlier).Fails ctx

theorem Match.FirstAt.unique {other : Nat} (first : attempt.FirstAt place ctx)
    (first' : attempt.FirstAt other ctx) : place = other := by
  rcases Nat.lt_trichotomy place other with less | same | more
  · exact absurd (first'.refused place first.lower less) first.succeeds.not_fails
  · exact same
  · exact absurd (first.refused other first'.lower more) first'.succeeds.not_fails

theorem Match.Returns.succeeds (returns : attempt.Returns ctx) (passes : ¬attempt.Fails ctx) :
    attempt.Succeeds ctx := by
  obtain ⟨⟨span, ctx'⟩, ran⟩ := returns
  cases valid : span.isValid with
  | true => exact ⟨span, ctx', ran, valid⟩
  | false => exact absurd ⟨span, ctx', ran, valid⟩ passes

theorem Match.firstAt_or_fails
    (returns : ∀ place, attempt.cursor ≤ place → place ≤ attempt.limit →
      (∀ earlier, attempt.cursor ≤ earlier → earlier < place →
        (attempt.startingAt earlier).Fails ctx) →
      (attempt.startingAt place).Returns ctx) :
    (∃ place, attempt.FirstAt place ctx) ∨
      ∀ place, attempt.cursor ≤ place → place ≤ attempt.limit →
        (attempt.startingAt place).Fails ctx := by
  classical
  by_cases passed : ∃ place, attempt.cursor ≤ place ∧ place ≤ attempt.limit ∧
      ¬(attempt.startingAt place).Fails ctx
  · left
    obtain ⟨lower, upper, passes⟩ := Nat.find_spec passed
    have refused : ∀ earlier, attempt.cursor ≤ earlier → earlier < Nat.find passed →
        (attempt.startingAt earlier).Fails ctx := by
      intro earlier lower' sooner
      by_contra passes'
      exact Nat.find_min passed sooner ⟨lower', by omega, passes'⟩
    exact ⟨Nat.find passed, lower, upper, (returns _ lower upper refused).succeeds passes, refused⟩
  · right
    intro place lower upper
    by_contra passes
    exact passed ⟨place, lower, upper, passes⟩

theorem Match.Succeeds.acts (succeeds : (attempt.startingAt place).Succeeds ctx) :
    ∃ next after, attempt.action ⟨attempt.source, attempt.limit⟩ ctx place =
      .ok (.matched next, after) := by
  obtain ⟨span, after, ran, valid⟩ := succeeds
  obtain ⟨-, verdict, acted, rfl⟩ := Match.run_eq_ok.mp ran
  cases verdict with
  | matched next => exact ⟨next, after, acted⟩
  | failed _ => cases valid

theorem Match.Fails.acts (fails : (attempt.startingAt place).Fails ctx) :
    ∃ offset after, attempt.action ⟨attempt.source, attempt.limit⟩ ctx place =
      .ok (.failed offset, after) := by
  obtain ⟨span, after, ran, invalid⟩ := fails
  obtain ⟨-, verdict, acted, rfl⟩ := Match.run_eq_ok.mp ran
  cases verdict with
  | matched _ => cases invalid
  | failed offset => exact ⟨offset, after, acted⟩

/-! ## Contexts that are probed -/

/-- On every context that a match may meet, probes see what the match does there. -/
theorem Reached.probed (reached : Reached α ctx) (task : Task α τ) {source : Array α} {limit : Nat}
    (inside : limit ≤ source.size) :
    ∃ among, Action.Probed (task.action ⟨source, limit⟩) ctx limit among ∧ among ctx := by
  cases reached with
  | bare log =>
      exact ⟨_, Action.probed_bare fun place within =>
        task.action_keeps (Context.kept_bare log) inside within rfl, rfl⟩
  | kept fresh ran =>
      obtain ⟨refs, trees, tracks⟩ := tracks_run ran fresh.tracks
      exact ⟨_, (task.realizes ⟨source, limit⟩).probed tracks limit, tracks⟩

/-- On every context that a match may meet, a search stops exactly at the first place where the
terminator matches, each time seen from the context of the beginning.  Without such a place, the end
of the input included, it fails, and always at the limit. -/
theorem upTo_finds_first (reached : Reached α ctx) (attempt : Match α τ) (inside : attempt.Inside)
    (returns : ∀ place, attempt.cursor ≤ place → place ≤ attempt.limit →
      (∀ earlier, attempt.cursor ≤ earlier → earlier < place →
        (attempt.startingAt earlier).Fails ctx) →
      (attempt.startingAt place).Returns ctx) :
    ∃ span ctx', (attempt.trying (.upTo attempt.matcher)).run ctx = .ok (span, ctx') ∧
      (∀ place, span = .valid attempt.source place attempt.limit ↔ attempt.FirstAt place ctx) ∧
      (span.isValid = false ↔ ∀ place, attempt.cursor ≤ place → place ≤ attempt.limit →
        ¬(attempt.startingAt place).Succeeds ctx) ∧
      (span.isValid = false → span = .failed attempt.source attempt.limit) := by
  obtain ⟨among, probed, here⟩ := reached.probed attempt.toTask inside.2
  have ends : attempt.cursor + (attempt.limit - attempt.cursor) = attempt.limit :=
    Nat.add_sub_of_le inside.1
  -- Every place is tried on the context of the beginning, since a probe takes back what it built.
  rcases Match.firstAt_or_fails returns with ⟨place, first⟩ | none
  · obtain ⟨next, after, found⟩ := first.succeeds.acts
    obtain ⟨ctx', acted⟩ := probed.upTo_found here ends first.lower first.upper
      (fun earlier lower upper => (first.refused earlier lower upper).acts) found
    refine ⟨.valid attempt.source place attempt.limit, ctx',
      Match.run_eq_ok.mpr ⟨inside, _, acted, rfl⟩, ?_, ?_, nofun⟩
    · intro other
      constructor
      · rintro ⟨⟩
        exact first
      · intro first'
        rw [first.unique first']
    · exact ⟨nofun, fun none => absurd first.succeeds (none place first.lower first.upper)⟩
  · obtain ⟨ctx', acted⟩ := probed.upTo_none here ends fun place lower upper =>
      (none place lower upper).acts
    refine ⟨.failed attempt.source attempt.limit, ctx',
      Match.run_eq_ok.mpr ⟨inside, _, acted, rfl⟩, ?_, ?_, fun _ => rfl⟩
    · intro other
      constructor
      · nofun
      · intro first
        exact absurd (none other first.lower first.upper) first.succeeds.not_fails
    · refine ⟨fun _ place lower upper succeeds => ?_, fun _ => rfl⟩
      exact succeeds.not_fails (none place lower upper)

/-- A node over a stored byte, and the byte that has to follow. -/
def closing : Match UInt8 Nat :=
  byteMatch (.seq [.store "n" (.node (some 1) false (.literal [1])), .literal [2]]) #[1, 1, 2]

theorem upTo_finds_first_closing :
    ∃ start ctx : Context Nat, Fresh true start ∧ run [.matching abandoned] start = .ok ctx ∧
      Reached UInt8 ctx ∧ closing.Inside ∧
      (∀ place ≤ closing.limit, (closing.startingAt place).Returns ctx) ∧
      ∃ span ctx', (closing.trying (.upTo closing.matcher)).run ctx = .ok (span, ctx') ∧
        (∀ place, span = .valid closing.source place closing.limit ↔ closing.FirstAt place ctx) ∧
        (span.isValid = false → span = .failed closing.source closing.limit) := by
  obtain ⟨ctx, ran⟩ := abandoned_returns
  have everywhere : ∀ place < 4, (run [.matching abandoned] smallTree >>=
      (closing.startingAt place).run).toBool = true := by decide +kernel
  rw [ran] at everywhere
  have places : ∀ place ≤ closing.limit, (closing.startingAt place).Returns ctx :=
    fun place within => Fault.exists_of_toBool (everywhere place (Nat.lt_succ_of_le within))
  have inside : closing.Inside := ⟨by decide, by decide⟩
  have reached : Reached UInt8 ctx := .kept fresh_smallTree ran
  obtain ⟨span, ctx', found, first, -, fails⟩ :=
    upTo_finds_first reached closing inside fun place _ upper _ => places place upper
  exact ⟨_, ctx, fresh_smallTree, ran, reached, inside, places, span, ctx', found, first, fails⟩

end PegForest.Session
