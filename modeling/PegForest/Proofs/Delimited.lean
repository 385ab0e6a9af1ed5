import PegForest.Proofs.Reading.Delimit
import PegForest.Proofs.Session.Answer
import PegForest.Proofs.SpanContract

/-!
# Blocks and lists as documented

A block is `opening item* closing` and a list is
`opening (item (separator item)* separator?)? closing`.  Both hold where the closing bracket can be
told from what else may stand at its place.  This is asked of the contexts only that the parts
themselves lead to, and of every place only what may stand there: an item after the opening bracket
or a separator, a separator after an item.
-/

set_option autoImplicit false

namespace PegForest.Session

variable {α τ : Type} [Atom α] {attempt : Match α τ} {builds : Bool} {ctx ctx' : Context τ}
  {refs : List Backref} {trees : List (MarkedTree τ)}

/-- Both matches return, they succeed together, and then they give the same span and leave contexts
in the same state. -/
def Match.SucceedsAs (attempt other : Match α τ) (ctx : Context τ) : Prop :=
  ∃ span ctx₁ span' ctx₂, attempt.run ctx = .ok (span, ctx₁) ∧ other.run ctx = .ok (span', ctx₂) ∧
    span.isValid = span'.isValid ∧ (span.isValid = true → span = span' ∧ SameState ctx₁ ctx₂)

/-- Both matches return, and they do not both succeed. -/
structure Match.Distinct (part closing : Match α τ) (ctx : Context τ) : Prop where
  returns : part.Returns ctx
  closes : closing.Returns ctx
  apart : part.Succeeds ctx → ¬closing.Succeeds ctx

def Match.Consumes (attempt : Match α τ) (ctx : Context τ) : Prop :=
  ∀ next ctx', attempt.run ctx = .ok (.valid attempt.source next attempt.limit, ctx') →
    next ≠ attempt.cursor

/-- The places where an item of a block may begin, each with the context that the parts before it
have led to. -/
inductive Match.BlockPlace (attempt : Match α τ) (opening item : Matcher α τ attempt.Rule)
    (ctx : Context τ) : Context τ → Nat → Prop where
  | opened {ctx' : Context τ} {next : Nat}
      (ran : (attempt.trying opening).run ctx =
        .ok (.valid attempt.source next attempt.limit, ctx')) :
      BlockPlace attempt opening item ctx ctx' next
  | item {before ctx' : Context τ} {cursor next : Nat}
      (place : BlockPlace attempt opening item ctx before cursor)
      (ran : ((attempt.trying item).startingAt cursor).run before =
        .ok (.valid attempt.source next attempt.limit, ctx')) :
      BlockPlace attempt opening item ctx ctx' next

/-- The places of a list where an item may begin (`false`) and those where an item has ended
(`true`), each with the context that the parts before it have led to. -/
inductive Match.ListPlace (attempt : Match α τ) (opening item separator : Matcher α τ attempt.Rule)
    (ctx : Context τ) : Bool → Context τ → Nat → Prop where
  | opened {ctx' : Context τ} {next : Nat}
      (ran : (attempt.trying opening).run ctx =
        .ok (.valid attempt.source next attempt.limit, ctx')) :
      ListPlace attempt opening item separator ctx false ctx' next
  | item {before ctx' : Context τ} {cursor next : Nat}
      (place : ListPlace attempt opening item separator ctx false before cursor)
      (ran : ((attempt.trying item).startingAt cursor).run before =
        .ok (.valid attempt.source next attempt.limit, ctx')) :
      ListPlace attempt opening item separator ctx true ctx' next
  | separator {before ctx' : Context τ} {cursor next : Nat}
      (place : ListPlace attempt opening item separator ctx true before cursor)
      (ran : ((attempt.trying separator).startingAt cursor).run before =
        .ok (.valid attempt.source next attempt.limit, ctx')) :
      ListPlace attempt opening item separator ctx false ctx' next

/-- The bracket of a block can be told from its items. -/
structure Match.ClearBlock (attempt : Match α τ) (opening item closing : Matcher α τ attempt.Rule)
    (ctx : Context τ) : Prop where
  opens : (attempt.trying opening).Returns ctx
  items : ∀ ctx' cursor, attempt.BlockPlace opening item ctx ctx' cursor →
    ((attempt.trying item).startingAt cursor).Distinct ((attempt.trying closing).startingAt cursor)
      ctx' ∧
    ((attempt.trying item).startingAt cursor).Consumes ctx'

/-- The bracket of a list can be told from its items and its separators. -/
structure Match.ClearList (attempt : Match α τ)
    (opening item separator closing : Matcher α τ attempt.Rule) (ctx : Context τ) : Prop where
  opens : (attempt.trying opening).Returns ctx
  items : ∀ ctx' cursor, attempt.ListPlace opening item separator ctx false ctx' cursor →
    ((attempt.trying item).startingAt cursor).Distinct ((attempt.trying closing).startingAt cursor)
      ctx' ∧
    ((attempt.trying item).startingAt cursor).Consumes ctx'
  separators : ∀ ctx' cursor, attempt.ListPlace opening item separator ctx true ctx' cursor →
    ((attempt.trying separator).startingAt cursor).Distinct
      ((attempt.trying closing).startingAt cursor) ctx'

/-! ## Answers and readings -/

theorem Match.succeedsAs_of_alike {matcher other : Matcher α τ attempt.Rule}
    (inside : attempt.Inside) (tracks : ctx.Tracks refs trees builds)
    (alike : Reading.MatchAlike ((attempt.trying matcher).reading refs)
      ((attempt.trying other).reading refs)) :
    (attempt.trying matcher).SucceedsAs (attempt.trying other) ctx := by
  obtain ⟨outcome, outcome', read, read', same⟩ := alike
  obtain ⟨⟨span, ctx₁⟩, ran, answers⟩ := Match.run_of_read (inside.trying matcher) tracks read
  obtain ⟨⟨span', ctx₂⟩, ran', answers'⟩ := Match.run_of_read (inside.trying other) tracks read'
  refine ⟨span, ctx₁, span', ctx₂, ran, ran', ?_⟩
  cases same with
  | matched next new stored =>
      cases answers with
      | matched tracks₁ =>
          cases answers' with
          | matched tracks₂ => exact ⟨rfl, fun _ => ⟨rfl, .of_tracks tracks₁ tracks₂⟩⟩
  | failed offset offset' =>
      cases answers with
      | failed _ =>
          cases answers' with
          | failed _ => exact ⟨rfl, nofun⟩

theorem Match.reads_of_distinct (attempt : Match α τ) {part closing : Matcher α τ attempt.Rule}
    (distinct : (attempt.trying part).Distinct (attempt.trying closing) ctx)
    (inside : attempt.Inside) (tracks : ctx.Tracks refs trees builds)
    {leads : Nat → List Backref → Prop}
    (onward : ∀ next ctx' new stored,
      (attempt.trying part).run ctx = .ok (.valid attempt.source next attempt.limit, ctx') →
      ctx'.Tracks (refs ++ stored) (trees ++ new) builds → leads next stored) :
    (attempt.reads part).Apart (attempt.reads closing) refs attempt.cursor leads := by
  obtain ⟨closed, closes⟩ := distinct.closes.reading (inside.trying closing) tracks
  obtain ⟨⟨span, ctx'⟩, ran⟩ := distinct.returns
  obtain ⟨outcome, read, answers⟩ := Match.read_of_run tracks ran
  cases answers with
  | failed _ => exact .refused read closes
  | matched tracks' =>
      cases closed with
      | failed unclosed => exact .taken closes read (onward _ _ _ _ ran tracks')
      | matched next new stored =>
          refine absurd ?_ (distinct.apart ⟨_, _, ran, rfl⟩)
          exact (Match.succeeds_iff (inside.trying closing) tracks).mpr ⟨_, _, _, closes⟩

theorem Match.opening_alike {opening : Matcher α τ attempt.Rule}
    (tracks : ctx.Tracks refs trees builds) (opens : (attempt.trying opening).Returns ctx)
    {second third : Reading τ}
    (onward : ∀ next ctx' new stored,
      (attempt.trying opening).run ctx = .ok (.valid attempt.source next attempt.limit, ctx') →
      ctx'.Tracks (refs ++ stored) (trees ++ new) builds →
      Reading.MatchAlike (second (refs ++ stored) next) (third (refs ++ stored) next)) :
    Reading.MatchAlike (((attempt.reads opening).andThen second) refs attempt.cursor)
      (((attempt.reads opening).andThen third) refs attempt.cursor) := by
  obtain ⟨⟨span, ctx'⟩, ran⟩ := opens
  obtain ⟨outcome, read, answers⟩ := Match.read_of_run tracks ran
  cases answers with
  | @failed _ offset _ _ _ =>
      have read' : attempt.reads opening refs attempt.cursor = .ok (.failed offset) := read
      exact ⟨_, _, Reading.andThen_of_failed read', Reading.andThen_of_failed read', .refl _⟩
  | @matched _ next new stored tracks' =>
      have read' : attempt.reads opening refs attempt.cursor =
          .ok (.matched next new stored) := read
      rw [Reading.andThen_of_matched read', Reading.andThen_of_matched read']
      exact (onward next ctx' new stored ran tracks').resume new

theorem Match.item_apart {item closing : Matcher α τ attempt.Rule} {cursor : Nat}
    (distinct : ((attempt.trying item).startingAt cursor).Distinct
      ((attempt.trying closing).startingAt cursor) ctx)
    (consumes : ((attempt.trying item).startingAt cursor).Consumes ctx) (inside : attempt.Inside)
    (bounded : cursor ≤ attempt.limit) (tracks : ctx.Tracks refs trees builds)
    {place : Context τ → Nat → Prop}
    (onward : ∀ ctx' next, ((attempt.trying item).startingAt cursor).run ctx =
      .ok (.valid attempt.source next attempt.limit, ctx') → place ctx' next) :
    (attempt.reads item).Apart (attempt.reads closing) refs cursor fun next stored =>
      cursor < next ∧ next ≤ attempt.limit ∧ next ≤ attempt.limit ∧ ∃ ctx' trees,
        place ctx' next ∧ ctx'.Tracks (refs ++ stored) trees builds := by
  refine Match.reads_of_distinct (attempt.startingAt cursor) distinct (inside.startingAt bounded)
    tracks ?_
  intro next ctx' new stored ran tracks'
  obtain ⟨-, -, forward, bounded'⟩ := Match.permits_of_run ran
  have moved := consumes next ctx' ran
  exact ⟨Nat.lt_of_le_of_ne forward (Ne.symm moved), bounded', bounded', ctx', _,
    onward ctx' next ran, tracks'⟩

/-! ## Blocks -/

theorem Match.ClearBlock.places {opening item closing : Matcher α τ attempt.Rule}
    (clear : attempt.ClearBlock opening item closing ctx) (inside : attempt.Inside)
    (builds : Bool) :
    Reading.BlockPlaces (attempt.reads item) (attempt.reads closing) attempt.limit
      fun refs cursor => cursor ≤ attempt.limit ∧ ∃ ctx' trees,
        attempt.BlockPlace opening item ctx ctx' cursor ∧ ctx'.Tracks refs trees builds := by
  rintro refs cursor ⟨bounded, ctx', trees, here, tracks⟩
  obtain ⟨distinct, consumes⟩ := clear.items ctx' cursor here
  exact Match.item_apart distinct consumes inside bounded tracks fun _ _ ran => .item here ran

theorem Match.block_alike {opening item closing : Matcher α τ attempt.Rule}
    (clear : attempt.ClearBlock opening item closing ctx) (inside : attempt.Inside)
    (tracks : ctx.Tracks refs trees builds) :
    Reading.MatchAlike (attempt.reads (.block opening item closing) refs attempt.cursor)
      (attempt.reads (.seq [opening, .star item, closing]) refs attempt.cursor) := by
  have documented : attempt.reads (.seq [opening, .star item, closing]) =
      (attempt.reads opening).andThen
        ((attempt.reads (.star item)).andThen (attempt.reads closing)) := by
    rw [← Reading.andThen_succeed (attempt.reads closing)]
    rfl
  rw [documented]
  refine Match.opening_alike tracks clear.opens fun next ctx' new stored ran tracks' => ?_
  exact Reading.blockRounds_alike (clear.places inside builds) .exhausted
    ⟨(Match.permits_of_run ran).2.2.2, ctx', _, .opened ran, tracks'⟩ (Nat.lt_succ_self _)
    (Nat.lt_succ_self _)

/-! ## Lists -/

theorem Match.ClearList.places {opening item separator closing : Matcher α τ attempt.Rule}
    (clear : attempt.ClearList opening item separator closing ctx) (inside : attempt.Inside)
    (builds : Bool) :
    Reading.ListPlaces (attempt.reads item) (attempt.reads separator) (attempt.reads closing)
      attempt.limit fun ended refs cursor => cursor ≤ attempt.limit ∧ ∃ ctx' trees,
        attempt.ListPlace opening item separator ctx ended ctx' cursor ∧
        ctx'.Tracks refs trees builds where
  item := by
    rintro refs cursor ⟨bounded, ctx', trees, here, tracks⟩
    obtain ⟨distinct, consumes⟩ := clear.items ctx' cursor here
    exact Match.item_apart distinct consumes inside bounded tracks fun _ _ ran => .item here ran
  separator := by
    rintro refs cursor ⟨bounded, ctx', trees, here, tracks⟩
    have distinct := clear.separators ctx' cursor here
    refine Match.reads_of_distinct (attempt.startingAt cursor) distinct (inside.startingAt bounded)
      tracks ?_
    intro next ctx'' new stored ran tracks'
    obtain ⟨-, -, forward, bounded'⟩ := Match.permits_of_run ran
    exact ⟨forward, bounded', ctx'', _, .separator here ran, tracks'⟩

theorem Match.list_alike {opening item separator closing : Matcher α τ attempt.Rule}
    (clear : attempt.ClearList opening item separator closing ctx) (inside : attempt.Inside)
    (tracks : ctx.Tracks refs trees builds) :
    Reading.MatchAlike (attempt.reads (.list opening item separator closing) refs attempt.cursor)
      (attempt.reads (.seq [opening,
        .opt (.seq [item, .star (.seq [separator, item]), .opt separator]), closing]) refs
        attempt.cursor) := by
  have documented : attempt.reads (.seq [opening,
        .opt (.seq [item, .star (.seq [separator, item]), .opt separator]), closing]) =
      (attempt.reads opening).andThen (((attempt.reads item).andThen fun refs next =>
        Reading.moreItems (attempt.reads item) (attempt.reads separator) .exhausted
          (attempt.limit - next + 1) refs next).optional.andThen (attempt.reads closing)) := by
    have last := Reading.andThen_succeed (attempt.reads closing)
    have item' := Reading.andThen_succeed (attempt.reads item)
    have more := Reading.andThen_succeed (attempt.reads separator).optional
    simp only [Reading.moreItems]
    rw [← last, ← more]
    nth_rewrite 2 [← item']
    rfl
  rw [documented]
  refine Match.opening_alike tracks clear.opens fun next ctx' new stored ran tracks' => ?_
  exact Reading.listRounds_alike (clear.places inside builds) .exhausted
    ⟨(Match.permits_of_run ran).2.2.2, ctx', _, .opened ran, tracks'⟩ (Nat.lt_succ_self _)
    fun next => Nat.lt_succ_self _

/-- On the context of every session, a list and a block succeed where their documented grammars do,
with the same span, the same nodes and the same backreferences, if the closing bracket can be told
from the item and the separator wherever they may stand. -/
theorem delimited_as_documented {start : Context τ} {steps : List (Step α τ)}
    (fresh : Fresh builds start) (reached : run steps start = .ok ctx) (attempt : Match α τ)
    (inside : attempt.Inside) :
    (∀ opening item separator closing, attempt.ClearList opening item separator closing ctx →
      (attempt.trying (.list opening item separator closing)).SucceedsAs
        (attempt.trying (.seq [opening,
          .opt (.seq [item, .star (.seq [separator, item]), .opt separator]), closing])) ctx) ∧
    (∀ opening item closing, attempt.ClearBlock opening item closing ctx →
      (attempt.trying (.block opening item closing)).SucceedsAs
        (attempt.trying (.seq [opening, .star item, closing])) ctx) := by
  obtain ⟨refs, trees, tracks⟩ := tracks_run reached fresh.tracks
  constructor
  · intro opening item separator closing clear
    exact Match.succeedsAs_of_alike inside tracks (Match.list_alike clear inside tracks)
  · intro opening item closing clear
    exact Match.succeedsAs_of_alike inside tracks (Match.block_alike clear inside tracks)

/-- A letter in brackets with a comma behind it. -/
def lettered : Match UInt8 Nat :=
  byteMatch .endOfInput #[40, 97, 44, 41]

def letter : Matcher UInt8 Nat Empty :=
  .node (some 1) false (.literal [97])

def blankTree : Context Nat :=
  ⟨some .empty, some (.empty (.empty 2)), #[]⟩

def letterTree : Context Nat :=
  { blankTree with
    forest := some
      { arena := (Arena.empty 2).alloc ⟨some 1, 1, 2, false, none, none, none, none, none⟩
        head := some 0, tail := some 0, created := 1, recycled := 0 } }

theorem lettered_opens : (lettered.trying (.literal [40])).run blankTree =
    .ok (.valid lettered.source 1 lettered.limit, blankTree) := rfl

theorem lettered_first : ((lettered.trying letter).startingAt 1).run blankTree =
    .ok (.valid lettered.source 2 lettered.limit, letterTree) := rfl

theorem lettered_comma : ((lettered.trying (.literal [44])).startingAt 2).run letterTree =
    .ok (.valid lettered.source 3 lettered.limit, letterTree) := rfl

theorem lettered_second : ((lettered.trying letter).startingAt 3).run letterTree =
    .ok (.failed lettered.source 3, letterTree) := rfl

theorem lettered_places {ended : Bool} {ctx' : Context Nat} {cursor : Nat}
    (place : lettered.ListPlace (.literal [40]) letter (.literal [44]) blankTree ended ctx' cursor) :
    ended = false ∧ ctx' = blankTree ∧ cursor = 1 ∨
      ended = true ∧ ctx' = letterTree ∧ cursor = 2 ∨
      ended = false ∧ ctx' = letterTree ∧ cursor = 3 := by
  induction place with
  | opened ran =>
      rw [lettered_opens] at ran
      cases ran
      exact .inl ⟨rfl, rfl, rfl⟩
  | item _ ran ih =>
      rcases ih with ⟨-, rfl, rfl⟩ | ⟨impossible, -⟩ | ⟨-, rfl, rfl⟩
      · rw [lettered_first] at ran
        cases ran
        exact .inr (.inl ⟨rfl, rfl, rfl⟩)
      · cases impossible
      · rw [lettered_second] at ran
        cases ran
  | separator _ ran ih =>
      rcases ih with ⟨impossible, -⟩ | ⟨-, rfl, rfl⟩ | ⟨impossible, -⟩
      · cases impossible
      · rw [lettered_comma] at ran
        cases ran
        exact .inr (.inr ⟨rfl, rfl, rfl⟩)
      · cases impossible

theorem lettered_clear : lettered.ClearList (.literal [40]) letter (.literal [44]) (.literal [41])
    blankTree := by
  have early : ((lettered.trying (.literal [41])).startingAt 1).Fails blankTree := ⟨_, _, rfl, rfl⟩
  have early' : ((lettered.trying (.literal [41])).startingAt 2).Fails letterTree :=
    ⟨_, _, rfl, rfl⟩
  have closes : ((lettered.trying (.literal [41])).startingAt 3).Returns letterTree := ⟨_, rfl⟩
  refine ⟨⟨_, lettered_opens⟩, ?_, ?_⟩
  · intro ctx' cursor place
    rcases lettered_places place with ⟨-, rfl, rfl⟩ | ⟨impossible, -⟩ | ⟨-, rfl, rfl⟩
    · refine ⟨⟨⟨_, lettered_first⟩, early.returns, fun _ succeeds => succeeds.not_fails early⟩, ?_⟩
      intro next ctx' ran
      rw [lettered_first] at ran
      cases ran
      exact nofun
    · cases impossible
    · have refused : ((lettered.trying letter).startingAt 3).Fails letterTree :=
        ⟨_, _, lettered_second, rfl⟩
      refine ⟨⟨⟨_, lettered_second⟩, closes, fun succeeds => absurd refused succeeds.not_fails⟩, ?_⟩
      intro next ctx' ran
      rw [lettered_second] at ran
      cases ran
  · intro ctx' cursor place
    rcases lettered_places place with ⟨impossible, -⟩ | ⟨-, rfl, rfl⟩ | ⟨impossible, -⟩
    · cases impossible
    · exact ⟨⟨_, lettered_comma⟩, early'.returns, fun _ succeeds => succeeds.not_fails early'⟩
    · cases impossible

theorem delimited_as_documented_lettered :
    Fresh true blankTree ∧ run ([] : List (Step UInt8 Nat)) blankTree = .ok blankTree ∧
      lettered.Inside ∧
      lettered.ClearList (.literal [40]) letter (.literal [44]) (.literal [41]) blankTree ∧
      (lettered.trying (.list (.literal [40]) letter (.literal [44]) (.literal [41]))).SucceedsAs
        (lettered.trying (.seq [.literal [40],
          .opt (.seq [letter, .star (.seq [.literal [44], letter]), .opt (.literal [44])]),
          .literal [41]])) blankTree := by
  have fresh : Fresh true blankTree := fresh_smallTree
  have reached : run ([] : List (Step UInt8 Nat)) blankTree = .ok blankTree := rfl
  have inside : lettered.Inside := ⟨by decide, by decide⟩
  obtain ⟨lists, -⟩ := delimited_as_documented fresh reached lettered inside
  exact ⟨fresh, reached, inside, lettered_clear, lists _ _ _ _ lettered_clear⟩

end PegForest.Session
