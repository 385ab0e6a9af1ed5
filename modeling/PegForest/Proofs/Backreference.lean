import PegForest.Proofs.Reading.Recall
import PegForest.Proofs.Session.Answer
import PegForest.Proofs.SpanContract

/-!
# Backreferences repeat what was stored last

A range is stored, something else is matched behind it, and then the range has to come again.  What
is recalled is the range that was stored in this sequence: not what an earlier match has stored under
the name, and nothing that was stored on the way inside an attempt that was given up.  The range may
overlap with the place where it is repeated, and nothing beyond the limit counts.
-/

set_option autoImplicit false

namespace PegForest

variable {α τ : Type}

namespace Context

def entries (ctx : Context τ) : List Backref :=
  (ctx.refs.map fun refs => refs.entries.toList).getD []

theorem Tracks.entries_eq {ctx : Context τ} {refs : List Backref} {trees : List (MarkedTree τ)}
    {builds : Bool} (tracks : ctx.Tracks refs trees builds) : ctx.entries = refs := by
  rw [entries, tracks.refs_eq]
  rfl

end Context

namespace Session

variable {attempt : Match α τ} {next ended : Nat}

/-- The answer of a repetition from `ended` on of what the match has consumed up to `next`. -/
structure Match.Repeated (attempt : Match α τ) (next ended : Nat) (span : Span α) : Prop where
  succeeds : span.isValid = true ↔ ended + (next - attempt.cursor) ≤ attempt.limit ∧
    ∀ j < next - attempt.cursor,
      attempt.order.Repeats attempt.source (ended + j) (attempt.cursor + j)
  ends : span.isValid = true →
    span = .valid attempt.source (ended + (next - attempt.cursor)) attempt.limit
  /-- A failure is where the first of them is missing or differs. -/
  fails : span.isValid = false → ∃ j < next - attempt.cursor,
    span = .failed attempt.source (ended + j) ∧
    (ended + j = attempt.limit ∨
      ¬attempt.order.Repeats attempt.source (ended + j) (attempt.cursor + j)) ∧
    ∀ i < j, ended + i ≠ attempt.limit ∧
      attempt.order.Repeats attempt.source (ended + i) (attempt.cursor + i)

theorem Match.repeated_of_all (bounded : ended ≤ attempt.limit)
    (all : ∀ j < next - attempt.cursor, ended + j < attempt.limit ∧
      attempt.order.Repeats attempt.source (ended + j) (attempt.cursor + j)) :
    attempt.Repeated next ended
      (.valid attempt.source (ended + (next - attempt.cursor)) attempt.limit) where
  succeeds := by
    refine ⟨fun _ => ⟨?_, fun j small => (all j small).2⟩, fun _ => rfl⟩
    rcases Nat.eq_zero_or_pos (next - attempt.cursor) with none | some
    · omega
    · have last := (all (next - attempt.cursor - 1) (by omega)).1
      omega
  ends := fun _ => rfl
  fails := nofun

theorem Match.repeated_of_first {j : Nat} (bounded : ended ≤ attempt.limit)
    (small : j < next - attempt.cursor)
    (differs : ¬(ended + j < attempt.limit ∧
      attempt.order.Repeats attempt.source (ended + j) (attempt.cursor + j)))
    (before : ∀ i < j, ended + i < attempt.limit ∧
      attempt.order.Repeats attempt.source (ended + i) (attempt.cursor + i)) :
    attempt.Repeated next ended (.failed attempt.source (ended + j)) where
  succeeds := by
    refine ⟨nofun, ?_⟩
    rintro ⟨room, all⟩
    exact absurd ⟨by omega, all j small⟩ differs
  ends := nofun
  fails := by
    intro _
    refine ⟨j, small, rfl, ?_, fun i less => ⟨Nat.ne_of_lt (before i less).1, (before i less).2⟩⟩
    -- the atom before this one, if there is one, stands before the limit
    have reached : ended + j ≤ attempt.limit := by
      rcases Nat.eq_zero_or_pos j with rfl | later
      · exact bounded
      · have previous := (before (j - 1) (by omega)).1
        omega
    rcases Nat.eq_or_lt_of_le reached with atLimit | below
    · exact .inl atLimit
    · exact .inr fun repeats => differs ⟨below, repeats⟩

/-- On the context of every session, a matcher consumes a range that is stored, and another one that
leaves nothing under the name ends behind it.  Then the sequence of both with the backreference
returns, and answers as a repetition of the atoms of that range. -/
theorem backref_repeats_last_stored [Atom α] {builds : Bool} {start ctx ctx₁ ctx₂ ctx₃ : Context τ}
    {steps : List (Step α τ)} (fresh : Fresh builds start) (reached : run steps start = .ok ctx)
    (attempt : Match α τ) (inner follow : Matcher α τ attempt.Rule) (name : String)
    (consumed : (attempt.trying inner).run ctx =
      .ok (.valid attempt.source next attempt.limit, ctx₁))
    (stored : ctx₁.storeRef name ⟨attempt.cursor, next⟩ = .ok ctx₂)
    (followed : ((attempt.trying follow).startingAt next).run ctx₂ =
      .ok (.valid attempt.source ended attempt.limit, ctx₃))
    (unnamed : ∀ entry ∈ ctx₃.entries.drop ctx₂.entries.length, entry.name ≠ name) :
    ∃ span ctx', (attempt.trying (.seq [.store name inner, follow, .backref name])).run ctx =
        .ok (span, ctx') ∧ attempt.Repeated next ended span := by
  obtain ⟨refs, trees, tracks⟩ := tracks_run reached fresh.tracks
  have inside : attempt.Inside := (Match.run_eq_ok.mp consumed).1
  obtain ⟨-, -, ordered, upper⟩ := Match.permits_of_run consumed
  have within : next ≤ attempt.source.size := Nat.le_trans upper inside.2
  obtain ⟨-, -, forward, bounded⟩ := Match.permits_of_run followed
  obtain ⟨outcome, read, answers⟩ := Match.read_of_run tracks consumed
  cases answers with
  | @matched _ _ _ stored₁ tracks₁ =>
      obtain ⟨_, stored', tracks₂⟩ := tracks₁.storeRef name ⟨attempt.cursor, next⟩
      rw [stored] at stored'
      cases stored'
      obtain ⟨outcome', read', answers'⟩ := Match.read_of_run tracks₂ followed
      cases answers' with
      | @matched _ _ _ stored₂ tracks₃ =>
          -- Nothing under the name comes behind the entry of `store`, so that entry is the last one.
          rw [tracks₂.entries_eq, tracks₃.entries_eq, List.drop_left] at unnamed
          rw [List.append_assoc] at read'
          have whole := attempt.seq_reading [.store name inner, follow, .backref name] refs
          simp only [List.map, Reading.sequence, Reading.andThen_succeed] at whole
          rcases Reading.recall_outcome ordered within read read' unnamed attempt.order
              attempt.limit with
            ⟨all, trees', kept, matched⟩ | ⟨j, small, differs, before, failed⟩
          · have whole' := whole.trans matched
            obtain ⟨_, ran, answers''⟩ := Match.run_of_read (inside.trying _) tracks whole'
            cases answers'' with
            | matched _ => exact ⟨_, _, ran, Match.repeated_of_all bounded all⟩
          · have whole' := whole.trans failed
            obtain ⟨_, ran, answers''⟩ := Match.run_of_read (inside.trying _) tracks whole'
            cases answers'' with
            | failed _ => exact ⟨_, _, ran, Match.repeated_of_first bounded small differs before⟩

def verse : Match UInt8 Nat :=
  byteMatch .endOfInput #[1, 2, 9, 1, 2]

def hesitant : Matcher UInt8 Nat Empty :=
  .choice [.seq [.store "n" (.literal [1]), .literal [9]], .literal [1, 2]]

def between : Matcher UInt8 Nat Empty :=
  .seq [.opt (.seq [.store "n" (.literal [9]), .literal [3]]), .literal [9]]

/-- A text context that has stored a range under the name before. -/
def storedBefore : Context Nat :=
  ⟨some ⟨#[⟨"n", ⟨2, 3⟩⟩]⟩, none, #[]⟩

theorem backref_repeats_last_stored_verse :
    ∃ after : Context Nat, Fresh false (.text : Context Nat) ∧
      run ([.storeRef "n" ⟨2, 3⟩] : List (Step UInt8 Nat)) .text = .ok storedBefore ∧
      (verse.trying hesitant).run storedBefore =
        .ok (.valid verse.source 2 verse.limit, storedBefore) ∧
      storedBefore.storeRef "n" ⟨verse.cursor, 2⟩ = .ok after ∧
      ((verse.trying between).startingAt 2).run after =
        .ok (.valid verse.source 3 verse.limit, after) ∧
      (∀ entry ∈ after.entries.drop after.entries.length, entry.name ≠ "n") ∧
      ∃ span ctx', (verse.trying (.seq [.store "n" hesitant, between, .backref "n"])).run
          storedBefore = .ok (span, ctx') ∧ verse.Repeated 2 3 span := by
  let after : Context Nat := ⟨some ⟨#[⟨"n", ⟨2, 3⟩⟩, ⟨"n", ⟨0, 2⟩⟩]⟩, none, #[]⟩
  have reached : run ([.storeRef "n" ⟨2, 3⟩] : List (Step UInt8 Nat)) .text = .ok storedBefore := rfl
  have consumed : (verse.trying hesitant).run storedBefore =
      .ok (.valid verse.source 2 verse.limit, storedBefore) := rfl
  have stored : storedBefore.storeRef "n" ⟨verse.cursor, 2⟩ = .ok after := rfl
  have followed : ((verse.trying between).startingAt 2).run after =
      .ok (.valid verse.source 3 verse.limit, after) := rfl
  have unnamed : ∀ entry ∈ after.entries.drop after.entries.length, entry.name ≠ "n" := by simp
  exact ⟨after, .text, reached, consumed, stored, followed, unnamed,
    backref_repeats_last_stored .text reached verse hesitant between "n" consumed stored followed
      unnamed⟩

end Session

end PegForest
