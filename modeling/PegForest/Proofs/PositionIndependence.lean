import PegForest.Proofs.Context.Displace
import PegForest.Proofs.SpanContract

/-!
# A part of an input is matched like an input of its own

A match knows of its input only the atoms from its cursor up to its limit.  So on an empty context a
match on a part of an input goes as the match on a copy of that part does, with all offsets further
into the input by what stands before the part: those of the span, of the nodes that were built and
of the ranges that were stored.  Backreferences refer to the whole input, but a range is stored only
where the match has been, and so the atoms that they ask for are those of the part as well.

A matcher that names the offset of a failure itself is the one exception.
-/

set_option autoImplicit false

namespace PegForest

variable {α τ : Type}

inductive Fault.Displaced (ahead : Nat) : Fault → Fault → Prop where
  | same (fault : Fault) : Displaced ahead fault fault
  | advance (count limit cursor : Nat) :
      Displaced ahead (.advancePastLimit count (limit + ahead) (cursor + ahead))
        (.advancePastLimit count limit cursor)

theorem Fault.Displaced.exhausted_iff {ahead : Nat} {fault fault' : Fault}
    (displaced : Displaced ahead fault fault') : fault = .exhausted ↔ fault' = .exhausted := by
  cases displaced with
  | same => exact Iff.rfl
  | advance => simp

theorem Fault.Displaced.eq_of_zero {fault fault' : Fault} (displaced : Displaced 0 fault fault') :
    fault = fault' := by
  cases displaced <;> rfl

inductive Span.Displaced (ahead : Nat) (source source' : Array α) : Span α → Span α → Prop where
  | valid (cursor limit : Nat) :
      Displaced ahead source source' (.valid source (cursor + ahead) (limit + ahead))
        (.valid source' cursor limit)
  | failed (offset : Nat) :
      Displaced ahead source source' (.failed source (offset + ahead)) (.failed source' offset)

/-- A context in which nothing is stored and nothing is built; it may have been in use before. -/
structure Context.Vacant (ctx : Context τ) : Prop where
  refs : ∀ refs, ctx.refs = some refs → refs = .empty
  forest : ∀ forest, ctx.forest = some forest → forest.Represents []

namespace Context

theorem Tracks.vacant {builds : Bool} {ctx : Context τ} (tracks : ctx.Tracks [] [] builds) :
    ctx.Vacant := by
  refine ⟨?_, ?_⟩
  · intro refs stored
    rw [tracks.refs_eq] at stored
    cases stored
    rfl
  · intro forest built
    cases tracks with
    | tree represents sound =>
        cases built
        exact represents
    | text sound => cases built

theorem Vacant.displaced {ctx : Context τ} (vacant : ctx.Vacant) (ahead : Nat) :
    Displaced ahead ctx.log ctx.log ctx ctx := by
  obtain ⟨refs, forest, log⟩ := ctx
  refine ⟨?_, ?_, .refl log log⟩
  · cases refs with
    | none => rfl
    | some refs =>
        rw [vacant.refs refs rfl, Option.map_some, Backrefs.displace_empty]
  · cases forest with
    | none => exact .none
    | some forest =>
        have represents := vacant.forest forest rfl
        exact .some ⟨Arena.images_nil represents.nodes represents.nodes, rfl, rfl, rfl, rfl⟩

end Context

theorem Context.Vacant.keeps {ctx : Context τ} (vacant : ctx.Vacant) (inside : Range → Prop) :
    ctx.Keeps inside := by
  intro refs stored entry member
  rw [vacant.refs refs stored] at member
  cases Array.not_mem_empty entry member

/-! ## Parts of inputs with the same atoms -/

/-- From `low` up to `limit` the second input holds the atoms that the first one holds `ahead` atoms
further into it. -/
structure SameAtoms (ahead low limit : Nat) (source source' : Array α) : Prop where
  atoms : ∀ place, low ≤ place → place < limit → source'[place]? = source[place + ahead]?
  inside : limit + ahead ≤ source.size
  inside' : limit ≤ source'.size

def Range.Within (low limit : Nat) (range : Range) : Prop :=
  low ≤ range.start ∧ range.start ≤ range.stop ∧ range.stop ≤ limit

namespace SameAtoms

variable {ahead low limit : Nat} {source source' : Array α}

theorem slice_eq (same : SameAtoms ahead low limit source source') {range : Range}
    (within : range.Within low limit) :
    slice source (range.displace ahead).start (range.displace ahead).stop =
      slice source' range.start range.stop := by
  obtain ⟨start, stop⟩ := range
  obtain ⟨after, forward, before⟩ := within
  have inside := same.inside
  have inside' := same.inside'
  dsimp only [Range.displace] at *
  unfold slice
  rw [if_pos ⟨by omega, by omega⟩, if_pos ⟨forward, by omega⟩, Except.ok.injEq]
  apply Array.ext_getElem?
  intro place
  rw [Array.getElem?_extract, Array.getElem?_extract]
  by_cases short : place < stop - start
  · rw [if_pos (by omega), if_pos (by omega), same.atoms (start + place) (by omega) (by omega),
      Nat.add_right_comm]
  · rw [if_neg (by omega), if_neg (by omega)]

theorem views (same : SameAtoms ahead low limit source source') {zone : Zone α}
    (holds : zone.toWindow = ⟨source, limit + ahead⟩) (first : zone.low = low + ahead)
    (strict : zone.strict) :
    zone.Views ahead (Fault.Displaced ahead) id (⟨source', limit⟩ : Window α) where
  limit := by rw [holds]
  peek? := by
    intro cursor after
    rw [first] at after
    have after' : low ≤ cursor := Nat.le_of_add_le_add_right after
    rw [holds, Option.map_id]
    unfold Window.peek?
    simp only [Nat.add_lt_add_iff_right, id]
    split
    · next before => exact same.atoms cursor after' before
    · rfl
  advance := by
    intro count cursor
    rw [holds]
    exact .advance count limit cursor
  named := fun loose => absurd strict loose

end SameAtoms

namespace Context

variable {ahead low limit : Nat} {base base' : Array Event}

/-- The context is displaced and the ranges of the other one lie between two places. -/
def DisplacedWithin (ahead low limit : Nat) (base base' : Array Event) (ctx ctx' : Context τ) :
    Prop :=
  Displaced ahead base base' ctx ctx' ∧ ctx'.Keeps (Range.Within low limit)

theorem sharesAhead_displaced {source source' : Array α}
    (same : SameAtoms ahead low limit source source') {zone : Zone α}
    (holds : zone.toWindow = ⟨source, limit + ahead⟩) (first : zone.low = low + ahead) :
    SharesAhead ahead (Fault.Displaced ahead)
      (DisplacedWithin ahead low limit base base' : Context τ → Context τ → Prop) zone id
      (⟨source', limit⟩ : Window α) where
  storeRef := by
    intro ctx ctx' name start stop after forward before related
    rw [first] at after
    rw [holds] at before
    have within : Range.Within low limit ⟨start, stop⟩ :=
      ⟨Nat.le_of_add_le_add_right after, forward, Nat.le_of_add_le_add_right before⟩
    exact ((related.1.storeRef name ⟨start, stop⟩).concur .same).and_right
      (related.2.storeRef name within)
  stored := by
    intro ctx ctx' name related
    apply (((related.1.getRef name).concur .same).and_right (related.2.getRef name)).bind
    rintro _ range ⟨rfl, within⟩
    rw [holds, same.slice_eq within]
    apply (Concur.refl fun fault _ => .same fault).mono
    rintro atoms _ rfl
    exact (Array.map_id atoms).symm

end Context

theorem Verdict.displaced_toSpan {ahead : Nat} {zone : Zone α} {R : Context τ → Context τ → Prop}
    {cursor limit : Nat} {answer answer' : Verdict × Context τ} (source' : Array α)
    (answers : zone.AnswersAhead ahead R cursor answer answer') :
    Span.Displaced ahead zone.source source' (answer.1.toSpan zone.source (limit + ahead))
      (answer'.1.toSpan source' limit) := by
  cases answers with
  | matched _ _ _ => exact .valid _ _
  | failed _ _ => exact .failed _

namespace Session

def Match.on (attempt : Match α τ) (source : Array α) (cursor limit : Nat) : Match α τ :=
  { attempt with source, cursor, limit }

def Match.alone (attempt : Match α τ) : Match α τ :=
  let part := attempt.source.extract attempt.cursor attempt.limit
  attempt.on part 0 part.size

/-- The same answer with all offsets `ahead` atoms further into the input, on contexts that began
with the same log. -/
def DisplacedAnswer (ahead : Nat) (source source' : Array α) (log : Array Event)
    (answer answer' : Span α × Context τ) : Prop :=
  Span.Displaced ahead source source' answer.1 answer'.1 ∧
    Context.Displaced ahead log log answer.2 answer'.2

variable [Atom α] {attempt : Match α τ} {start : Context τ}

/-- A match on any part with the same atoms, where this part lies `ahead` atoms further. -/
theorem Match.run_displaced {ahead cursor limit : Nat} {source : Array α} (vacant : start.Vacant)
    (unnamed : ∀ inner, attempt.grammar.Uses attempt.matcher inner → inner.isFailAt = false)
    (same : SameAtoms ahead cursor limit attempt.source source) (ordered : cursor ≤ limit)
    (first : attempt.cursor = cursor + ahead) (last : attempt.limit = limit + ahead) :
    Concur (Fault.Displaced ahead) (DisplacedAnswer ahead attempt.source source start.log)
      (attempt.run start) ((attempt.on source cursor limit).run start) := by
  have ordered' := Nat.add_le_add_right ordered ahead
  obtain ⟨task, whole, place, bound⟩ := attempt
  obtain rfl : place = cursor + ahead := first
  obtain rfl : bound = limit + ahead := last
  let zone : Zone α := ⟨⟨whole, limit + ahead⟩, cursor + ahead, True, same.inside⟩
  have misused : ∀ {fault : Fault}, fault.IsMisuse → Fault.Displaced ahead fault fault :=
    fun _ => .same _
  have lasting : Context.LastingAhead ahead (Fault.Displaced ahead)
      (Context.DisplacedWithin ahead cursor limit start.log start.log :
        Context τ → Context τ → Prop) :=
    (Context.lastingAhead_displaced .same start.log start.log).keeping _
  have keyed : task.order.Keyed (Fault.Displaced ahead) id task.order := .refl misused
  have respects : Action.RespectsAhead ahead (Fault.Displaced ahead)
      (Context.DisplacedWithin ahead cursor limit start.log start.log) zone
      (task.action zone.toWindow) ((task.grammar.mapAtoms id).run task.order task.depth
        ⟨source, limit⟩ (task.matcher.mapAtoms id)) := by
    apply Grammar.run_respectsAhead lasting keyed (same.views rfl rfl trivial) (.same _) task.depth
    intro inner used
    apply Matcher.asks_of_shares (Context.sharesAhead_displaced same rfl rfl)
    · intro named
      rw [unnamed inner used] at named
      cases named
    · intro _ _
      trivial
  rw [Grammar.mapAtoms_id, Matcher.mapAtoms_id] at respects
  have begun : Context.DisplacedWithin ahead cursor limit start.log start.log start start :=
    ⟨vacant.displaced ahead, vacant.keeps _⟩
  have acts := respects start start cursor ⟨Nat.le_refl _, ordered'⟩ begun
  rw [Match.run_of_inside _ ⟨ordered', same.inside⟩, Match.run_of_inside _ ⟨ordered, same.inside'⟩]
  apply acts.bind
  intro answer answer' answers
  refine .ok ⟨Verdict.displaced_toSpan source answers, ?_⟩
  cases answers with
  | matched _ _ related => exact related.1
  | failed _ related => exact related.1

omit [Atom α] in
theorem Match.sameAtoms_alone
    (inside : attempt.cursor ≤ attempt.limit ∧ attempt.limit ≤ attempt.source.size) :
    SameAtoms attempt.cursor 0 (attempt.limit - attempt.cursor) attempt.source
      (attempt.source.extract attempt.cursor attempt.limit) := by
  refine ⟨?_, ?_, ?_⟩
  · intro place _ before
    rw [Array.getElem?_extract, if_pos (by omega), Nat.add_comm]
  · omega
  · rw [Array.size_extract]
    omega

/-- On an empty context a match on a part of an input goes as the match on that part alone, with
offsets further by what stands before the part; it goes on for ever if and only if that one does;
and what stands before and behind the part does not matter at all. -/
theorem displaced_match_agrees (vacant : start.Vacant) (attempt : Match α τ)
    (inside : attempt.cursor ≤ attempt.limit ∧ attempt.limit ≤ attempt.source.size)
    (unnamed : ∀ inner, attempt.grammar.Uses attempt.matcher inner → inner.isFailAt = false) :
    Concur (Fault.Displaced attempt.cursor)
        (DisplacedAnswer attempt.cursor attempt.source attempt.alone.source start.log)
        (attempt.run start) (attempt.alone.run start) ∧
      (attempt.run start = .error .exhausted ↔ attempt.alone.run start = .error .exhausted) ∧
      ∀ source : Array α, attempt.limit ≤ source.size →
        source.extract attempt.cursor attempt.limit =
          attempt.source.extract attempt.cursor attempt.limit →
        Agree (DisplacedAnswer 0 attempt.source source start.log) (attempt.run start)
          ((attempt.on source attempt.cursor attempt.limit).run start) := by
  have within := Nat.sub_add_cancel inside.1
  have whole : (attempt.source.extract attempt.cursor attempt.limit).size =
      attempt.limit - attempt.cursor := by
    rw [Array.size_extract]
    omega
  have alone := Match.run_displaced vacant unnamed (Match.sameAtoms_alone inside)
    (Nat.zero_le _) (Nat.zero_add _).symm within.symm
  rw [← whole] at alone
  refine ⟨alone, alone.error_iff fun _ _ displaced => displaced.exhausted_iff, ?_⟩
  · intro source reaches same
    have atoms : SameAtoms 0 attempt.cursor attempt.limit attempt.source source := by
      refine ⟨?_, inside.2, reaches⟩
      intro place after before
      have here := congrArg (·[place - attempt.cursor]?) same
      simp only [Array.getElem?_extract] at here
      rw [if_pos (by omega), if_pos (by omega), Nat.add_sub_of_le after] at here
      exact here
    have elsewhere := Match.run_displaced vacant unnamed atoms inside.1 rfl rfl
    exact (elsewhere.mono_stops fun _ _ displaced => displaced.eq_of_zero).agree

/-- A byte that has to come again behind a bracket, and then nothing more; on either side of the part
stands a byte that does not belong to it. -/
def repeated : Match UInt8 Nat :=
  { Rule := Unit
    grammar := fun _ =>
      .seq [.store "n" (.node (some 1) false (.one .any)), .literal [40], .backref "n", .endOfInput]
    order := .natural
    depth := 2
    matcher := .rule ()
    source := #[9, 7, 40, 7, 9]
    cursor := 1
    limit := 4 }

theorem displaced_match_agrees_repeated :
    ∃ start ctx : Context Nat, Fresh true start ∧ run [.matching abandoned] start = .ok ctx ∧
      (∀ inner, repeated.grammar.Uses repeated.matcher inner → inner.isFailAt = false) ∧
      (repeated.run ctx.reset).toBool = true ∧
      Concur (Fault.Displaced 1) (DisplacedAnswer 1 repeated.source #[7, 40, 7] ctx.reset.log)
        (repeated.run ctx.reset) (repeated.alone.run ctx.reset) ∧
      Agree (DisplacedAnswer 0 repeated.source #[7, 7, 40, 7] ctx.reset.log)
        (repeated.run ctx.reset) ((repeated.on #[7, 7, 40, 7] 1 4).run ctx.reset) := by
  have returns : (do
      let ctx ← run [.matching abandoned] smallTree
      repeated.run ctx.reset).toBool = true := by decide +kernel
  obtain ⟨answer, both⟩ := Fault.exists_of_toBool returns
  obtain ⟨ctx, ran, matched⟩ := Fault.bind_eq_ok.mp both
  obtain ⟨refs, trees, tracks⟩ := tracks_run ran fresh_smallTree.tracks
  have unnamed : ∀ inner, repeated.grammar.Uses repeated.matcher inner →
      inner.isFailAt = false := by
    intro inner uses
    have body : (repeated.grammar ()).Within (·.isFailAt = false) 4 := by
      simp [Matcher.Within, Matcher.parts, repeated, Matcher.isFailAt]
    have whole : repeated.matcher.Within (·.isFailAt = false) 1 := by
      simp [Matcher.Within, Matcher.parts, repeated, Matcher.isFailAt]
    exact uses.of_every (fun _ _ => .of_within body) (.of_within whole)
  obtain ⟨alone, -, elsewhere⟩ :=
    displaced_match_agrees tracks.reset.vacant repeated (by decide) unnamed
  refine ⟨_, ctx, fresh_smallTree, ran, unnamed, ?_, alone, elsewhere _ (by decide) (by decide)⟩
  rw [matched]
  rfl

end Session

end PegForest
