import PegForest.Proofs.Erasure

/-!
# The contract of a match

A match on a part of an input that returns gives back a span of the same input: the cursor has moved
on, but not beyond the limit, which stays, or the match has failed at an offset between the two.  On
the way no matcher is run on any other span than a valid one between that cursor and that limit, and
so none is run on a span that has failed.  This holds on every context.

A match stops with a fault only for a reason that can be seen in the matcher: it skips, it names an
offset, it asks for a stored range, it tests a range of atoms whose bounds are the wrong way round,
or it stores something where there is no store.  The forest is no such reason: on the context of a
session, no rewind and no change of the forest ever stops.  A match of a matcher without these parts
always returns, unless its rules call each other beyond the bound; and none of its loops is a reason
for it to stop, because every round but the last moves on.
-/

set_option autoImplicit false

namespace PegForest

variable {α τ ρ : Type}

/-! ## Tests that do not stop -/

def AtomClass.InOrder (order : Comparator α) : AtomClass α → Prop
  | .within low high => order low high ≠ .gt
  | .except inner => inner.InOrder order
  | _ => True

theorem AtomClass.InOrder.test_returns [Atom α] {order : Comparator α} {kind : AtomClass α}
    (inOrder : kind.InOrder order) (a : α) : ∃ passed, kind.test order a = .ok passed := by
  induction kind with
  | any => exact ⟨_, rfl⟩
  | exactly b => exact ⟨_, rfl⟩
  | among set => exact ⟨_, rfl⟩
  | within low high =>
      rw [AtomClass.test, if_neg inOrder]
      exact ⟨_, rfl⟩
  | except inner ih =>
      obtain ⟨passed, returned⟩ := ih inOrder
      rw [AtomClass.test, returned]
      exact ⟨_, rfl⟩

-- The comparator says which bounds are in order.
example : (AtomClass.within 9 1).test (Comparator.reversed : Comparator Int) 5 = .ok true := by
  decide

namespace Matcher

/-- No part of its own for which a matcher may stop; `store` says whether there is a store. -/
def Guarded (order : Comparator α) (store : Bool) : Matcher α τ ρ → Prop
  | .one kind => kind.InOrder order
  | .store _ _ => store = true
  | .backref _ | .skip _ | .failAt _ => False
  | _ => True

theorem Guarded.stops [Atom α] {order : Comparator α} {store : Bool} {matcher : Matcher α τ ρ}
    (guarded : matcher.Guarded order store) {stops : Fault → Fault → Prop} {calls : ρ → Prop}
    (called : ∀ name, matcher = .rule name → calls name) : matcher.Stops order stops calls := by
  cases matcher with
  | one kind =>
      intro a fault stopped
      obtain ⟨passed, returned⟩ := AtomClass.InOrder.test_returns guarded a
      rw [returned] at stopped
      cases stopped
  | rule name => exact called name rfl
  | backref _ => cases guarded
  | skip _ => cases guarded
  | failAt _ => cases guarded
  | _ => trivial

theorem Guarded.usesRefs {order : Comparator α} {matcher : Matcher α τ ρ}
    (guarded : matcher.Guarded order false) : matcher.usesRefs = false := by
  cases matcher with
  | store _ _ => cases guarded
  | backref _ => cases guarded
  | _ => rfl

end Matcher

namespace Session

/-- The contexts that a match may meet: one that keeps nothing, or the context of a session. -/
inductive Reached (α : Type) {τ : Type} [Atom α] : Context τ → Prop where
  | bare (log : Array Event) : Reached α ⟨none, none, log⟩
  | kept {builds : Bool} {start ctx : Context τ} {steps : List (Step α τ)}
      (fresh : Fresh builds start) (ran : run steps start = .ok ctx) : Reached α ctx

def Match.start (attempt : Match α τ) : Span α :=
  .valid attempt.source attempt.cursor attempt.limit

/-- The valid spans of a match: its input and its limit, and its cursor or one further on. -/
def Match.Covers (attempt : Match α τ) : Span α → Prop
  | .valid source cursor limit =>
      source = attempt.source ∧ limit = attempt.limit ∧ attempt.cursor ≤ cursor ∧ cursor ≤ limit
  | .failed _ _ => False

def Match.Permits (attempt : Match α τ) : Span α → Prop
  | .valid source cursor limit => attempt.Covers (.valid source cursor limit)
  | .failed source offset =>
      source = attempt.source ∧ offset ≤ source.size ∧
        ((∀ inner, attempt.grammar.Uses attempt.matcher inner → inner.isFailAt = false) →
          attempt.cursor ≤ offset ∧ offset ≤ attempt.limit)

theorem Match.Covers.consumed_append_remaining {attempt : Match α τ} {span : Span α}
    (covers : attempt.Covers span) :
    span.consumedSince attempt.start ++ span.remaining = attempt.start.remaining := by
  cases span with
  | failed source offset => cases covers
  | valid source cursor limit =>
      obtain ⟨rfl, rfl, forward, bounded⟩ := covers
      have consumed : (Span.valid attempt.source cursor attempt.limit).consumedSince attempt.start =
          attempt.source.extract attempt.cursor cursor := if_pos forward
      rw [consumed]
      simp [Span.remaining, Match.start, Nat.min_eq_left forward, Nat.max_eq_right bounded]

variable [Atom α] {attempt : Match α τ}

/-- The match, with something done to what every matcher does that is run on the way. -/
def Match.runVia (attempt : Match α τ) (enter : SpanAction α τ → SpanAction α τ) (ctx : Context τ) :
    Except Fault (Span α × Context τ) := do
  let span ← Span.between attempt.source attempt.cursor attempt.limit
  attempt.grammar.enterOn attempt.order attempt.depth enter attempt.matcher ctx span

/-! ## Where a match is -/

def Match.zone (attempt : Match α τ) (inside : attempt.limit ≤ attempt.source.size) (strict : Prop) :
    Zone α :=
  { source := attempt.source, limit := attempt.limit, low := attempt.cursor, strict, inside }

omit [Atom α] in
theorem asks_of_isFailAt {strict : Prop} {matcher : Matcher α τ ρ}
    (loose : matcher.isFailAt = true → ¬strict) :
    matcher.Asks (Context.SharesRefs Eq (Eq : Context τ → Context τ → Prop)) strict
      fun _ => True :=
  Matcher.asks_of_shares (Context.sharesRefs_eq fun _ => rfl) loose fun _ _ => trivial

theorem Match.permits_of_run {ctx ctx' : Context τ} {span : Span α}
    (returned : attempt.run ctx = .ok (span, ctx')) : attempt.Permits span := by
  obtain ⟨inside, verdict, acted, rfl⟩ := Match.run_eq_ok.mp returned
  let zone := attempt.zone inside.2
    (∀ inner, attempt.grammar.Uses attempt.matcher inner → inner.isFailAt = false)
  have respects : Action.Respects Eq Eq zone (attempt.action zone.toWindow)
      (attempt.action zone.toWindow) := by
    apply Grammar.run_respects_same (Context.lasting_eq fun _ => rfl) rfl attempt.depth
    intro inner uses
    apply asks_of_isFailAt
    intro named strict
    rw [strict inner uses] at named
    cases named
  have answers := (respects ctx ctx attempt.cursor ⟨Nat.le_refl _, inside.1⟩ rfl).agree
  have acted' : attempt.action zone.toWindow ctx attempt.cursor = .ok (verdict, ctx') := acted
  rw [acted'] at answers
  obtain ⟨_, _, answers⟩ := answers.of_ok
  cases answers with
  | matched forward bounded _ => exact ⟨rfl, rfl, forward, bounded⟩
  | failed falls _ => exact ⟨rfl, falls.1, falls.2⟩

/-- What matchers do outside the part of the input, or on failed spans, makes no difference. -/
theorem Match.runVia_eq_run {enter : SpanAction α τ → SpanAction α τ}
    (inside : attempt.cursor ≤ attempt.limit ∧ attempt.limit ≤ attempt.source.size)
    (same : ∀ action ctx span, attempt.Covers span → enter action ctx span = action ctx span)
    (ctx : Context τ) : attempt.runVia enter ctx = attempt.run ctx := by
  have transparent : SpanAction.Transparent ⟨attempt.source, attempt.limit⟩ attempt.cursor enter :=
    fun action ctx cursor above within => same action ctx _ ⟨rfl, rfl, above, within⟩
  rw [attempt.run_of_inside inside, Match.runVia, Span.between, if_pos inside]
  exact attempt.grammar.enterOn_eq inside transparent attempt.depth attempt.matcher ctx

/-! ## Why a match stops -/

theorem Task.stops_as_read {task : Task α τ} {window : Window α} {stops : Fault → Fault → Prop}
    {builds : Bool} {ctx : Context τ} {refs : List Backref} {trees : List (MarkedTree τ)}
    {cursor : Nat} {fault : Fault}
    (alike : Reading.Alike (.recognition stops) window.limit (task.reading window)
      (task.erase.reading window))
    (tracks : ctx.Tracks refs trees builds) (within : cursor ≤ window.limit)
    (stopped : task.action window ctx cursor = .error fault) : ∃ fault', stops fault fault' := by
  have agree := task.realizes window builds ctx refs trees cursor tracks
  rw [stopped] at agree
  have concur := alike refs refs cursor within rfl
  rw [agree.of_error] at concur
  obtain ⟨fault', -, related⟩ := concur.of_error
  exact ⟨fault', related⟩

theorem Task.alike_exhausted {task : Task α τ} {store : Bool} (window : Window α)
    (guarded : ∀ inner, task.grammar.Uses task.matcher inner → inner.Guarded task.order store) :
    Reading.Alike (.recognition fun fault _ => fault = .exhausted) window.limit (task.reading window)
      (task.erase.reading window) := by
  refine Grammar.erase_alike ?_ task.depth task.matcher ?_
  · rfl
  · intro inner uses
    exact (guarded inner uses).stops fun _ _ => trivial

theorem Task.alike_never {task : Task α τ} {store : Bool} (window : Window α)
    (guarded : ∀ inner, task.grammar.Uses task.matcher inner → inner.Guarded task.order store)
    (noRule : ∀ name, ¬task.grammar.Uses task.matcher (.rule name)) :
    Reading.Alike (.recognition fun _ _ => False) window.limit (task.reading window)
      (task.erase.reading window) := by
  refine Matcher.erase_alike task.matcher ?_
  intro part partOf
  apply (guarded part (.of_partOf partOf (.self part))).stops
  rintro name rfl
  exact absurd (.of_partOf partOf (.self _)) (noRule name)

/-- A guarded match that stops on a context that keeps nothing stops on a text context as well. -/
theorem Reached.tracked {ctx : Context τ} (reached : Reached α ctx) {task : Task α τ}
    {source : Array α} {cursor limit : Nat} (inside : cursor ≤ limit ∧ limit ≤ source.size)
    (guarded : ∀ inner, task.grammar.Uses task.matcher inner →
      inner.Guarded task.order ctx.refs.isSome) {fault : Fault}
    (stopped : task.action ⟨source, limit⟩ ctx cursor = .error fault) :
    ∃ builds ctx' refs trees, Context.Tracks refs trees builds ctx' ∧
      task.action ⟨source, limit⟩ ctx' cursor = .error fault := by
  cases reached with
  | bare log =>
      have agree := Task.flat_agrees inside (fun inner uses => (guarded inner uses).usesRefs)
        (show Context.Flat ⟨none, none, log⟩ ⟨some ⟨#[]⟩, none, log⟩ from ⟨rfl, rfl⟩)
      rw [stopped] at agree
      exact ⟨false, _, [], [], .text (by simp), agree.of_error⟩
  | kept fresh ran =>
      obtain ⟨refs, trees, tracks⟩ := tracks_run ran fresh.tracks
      exact ⟨_, ctx, refs, trees, tracks, stopped⟩

theorem Match.stops_of_run {ctx : Context τ}
    (inside : attempt.cursor ≤ attempt.limit ∧ attempt.limit ≤ attempt.source.size) {fault : Fault}
    (stopped : attempt.run ctx = .error fault) :
    attempt.action ⟨attempt.source, attempt.limit⟩ ctx attempt.cursor = .error fault := by
  have acts := attempt.run_of_inside inside ctx
  rw [stopped] at acts
  cases acted : attempt.action ⟨attempt.source, attempt.limit⟩ ctx attempt.cursor with
  | ok answer =>
      rw [acted] at acts
      cases acts
  | error fault' =>
      rw [acted] at acts
      cases acts
      rfl

/-- The contract of a match on a part of the input: where it ends and where it fails, that matchers
are run on its own valid spans alone, and that a guarded match only stops when its rules call each
other beyond the bound. -/
theorem match_meets_contract {ctx : Context τ} (reached : Reached α ctx) (attempt : Match α τ)
    (inside : attempt.cursor ≤ attempt.limit ∧ attempt.limit ≤ attempt.source.size) :
    (∀ span ctx', attempt.run ctx = .ok (span, ctx') → attempt.Permits span ∧
      (span.isValid = true →
        span.consumedSince attempt.start ++ span.remaining = attempt.start.remaining)) ∧
    (∀ enter : SpanAction α τ → SpanAction α τ,
      (∀ action ctx span, attempt.Covers span → enter action ctx span = action ctx span) →
      attempt.runVia enter ctx = attempt.run ctx) ∧
    ((∀ inner, attempt.grammar.Uses attempt.matcher inner →
        inner.Guarded attempt.order ctx.refs.isSome) →
      (∀ fault, attempt.run ctx = .error fault → fault = .exhausted) ∧
      ((∀ name, ¬attempt.grammar.Uses attempt.matcher (.rule name)) →
        ∃ answer, attempt.run ctx = .ok answer)) := by
  refine ⟨?_, fun _ same => Match.runVia_eq_run inside same ctx, ?_⟩
  · intro span ctx' returned
    have permits := Match.permits_of_run returned
    refine ⟨permits, fun valid => ?_⟩
    cases span with
    | valid source cursor limit =>
        exact Match.Covers.consumed_append_remaining permits
    | failed source offset => cases valid
  intro guarded
  constructor
  · intro fault stopped
    -- Guarded parts do not stop, so the bound on calls is the one reason left.
    obtain ⟨builds, ctx', refs, trees, tracks, stopped'⟩ :=
      reached.tracked inside guarded (Match.stops_of_run inside stopped)
    obtain ⟨_, exhausted⟩ :=
      Task.stops_as_read (Task.alike_exhausted _ guarded) tracks inside.1 stopped'
    exact exhausted
  · intro noRule
    cases ran : attempt.run ctx with
    | ok answer => exact ⟨answer, rfl⟩
    | error fault =>
        obtain ⟨builds, ctx', refs, trees, tracks, stopped⟩ :=
          reached.tracked inside guarded (Match.stops_of_run inside ran)
        obtain ⟨_, impossible⟩ :=
          Task.stops_as_read (Task.alike_never _ guarded noRule) tracks inside.1 stopped
        exact impossible.elim

/-- Nodes over bracketed words, and a rule that calls itself. -/
def nested : Match UInt8 Nat :=
  { Rule := Unit
    grammar := fun _ =>
      .choice [.node (some 1) false (.seq [.literal [40], .rule (), .literal [41]]),
        .star (.one (.within 97 122))]
    order := .natural
    depth := 3
    matcher := .rule ()
    source := #[40, 97, 41]
    cursor := 0
    limit := 3 }

def idle : Match UInt8 Nat :=
  byteMatch (.star .endOfInput) #[]

/-- Stop where a matcher is run on a span that has failed. -/
def refuseFailed (action : SpanAction UInt8 Nat) : SpanAction UInt8 Nat := fun ctx span =>
  if span.isValid then action ctx span else .error .advanceFailed

theorem match_meets_contract_nested :
    (∃ start ctx : Context Nat, Fresh true start ∧ run [.matching abandoned] start = .ok ctx ∧
      (∀ span ctx', nested.run ctx = .ok (span, ctx') → nested.Permits span ∧
        (span.isValid = true →
          span.consumedSince nested.start ++ span.remaining = nested.start.remaining)) ∧
      nested.runVia refuseFailed ctx = nested.run ctx ∧
      (∀ inner, nested.grammar.Uses nested.matcher inner →
        inner.Guarded nested.order ctx.refs.isSome) ∧
      ∀ fault, nested.run ctx = .error fault → fault = .exhausted) ∧
    (∀ inner, idle.grammar.Uses idle.matcher inner → inner.Guarded idle.order false) ∧
    ∃ answer, idle.run ⟨none, none, #[]⟩ = .ok answer := by
  constructor
  · obtain ⟨ctx, ran⟩ := abandoned_returns
    have guarded : ∀ inner, nested.grammar.Uses nested.matcher inner →
        inner.Guarded nested.order ctx.refs.isSome := by
      intro inner uses
      have letters : Comparator.natural (97 : UInt8) 122 ≠ .gt := by decide
      have body : (nested.grammar ()).Within (·.Guarded nested.order ctx.refs.isSome) 4 := by
        simp [Matcher.Within, Matcher.parts, nested, Matcher.Guarded, AtomClass.InOrder, letters]
      have whole : nested.matcher.Within (·.Guarded nested.order ctx.refs.isSome) 1 := by
        simp [Matcher.Within, Matcher.parts, nested, Matcher.Guarded]
      exact uses.of_every (fun _ _ => .of_within body) (.of_within whole)
    have refuses : ∀ (action : SpanAction UInt8 Nat) ctx span, nested.Covers span →
        refuseFailed action ctx span = action ctx span := by
      intro action ctx span covers
      cases span with
      | valid source cursor limit => rfl
      | failed source offset => cases covers
    obtain ⟨permits, entered, safe⟩ :=
      match_meets_contract (.kept fresh_smallTree ran) nested (by decide)
    exact ⟨_, ctx, fresh_smallTree, ran, permits, entered _ refuses, guarded, (safe guarded).1⟩
  · have guarded : ∀ inner, idle.grammar.Uses idle.matcher inner → inner.Guarded idle.order false := by
      intro inner uses
      have guarded : idle.matcher.Within (·.Guarded idle.order false) 2 := by
        simp [Matcher.Within, Matcher.parts, idle, byteMatch, Matcher.Guarded]
      exact uses.of_every (fun rule => rule.elim) (.of_within guarded)
    obtain ⟨-, -, safe⟩ := match_meets_contract (.bare #[]) idle (by decide)
    exact ⟨guarded, (safe guarded).2 fun rule => rule.elim⟩

end Session

end PegForest
