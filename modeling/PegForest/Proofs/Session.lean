import PegForest.Parser.Basic
import PegForest.Proofs.Forest.WellFormed
import PegForest.Proofs.Matcher.OnSpan
import PegForest.Proofs.Reading.Depth
import PegForest.Proofs.Reading.Realize

/-!
# Sessions

A session uses one context for matches and parses, one after another, with resets and rewinds
between them.  A rewind may name any checkpoint at all, and so also one that was taken long ago and
speaks of nodes that are gone; such a rewind stops or cuts the forest at a root that is still there.

Every step takes a context that tracks sound trees to one that tracks sound trees.  So the forest is
well-formed after every session, and what a session has built is there until it is rewound.
-/

set_option autoImplicit false

namespace PegForest.Session

open MarkedTree

structure Task (α τ : Type) where
  {Rule : Type}
  grammar : Grammar α τ Rule
  order : Comparator α
  depth : Nat
  matcher : Matcher α τ Rule

/-- A matcher and the part of an input that it is run on. -/
structure Match (α τ : Type) extends Task α τ where
  source : Array α
  cursor : Nat
  limit : Nat

inductive Step (α τ : Type) where
  | matching (attempt : Match α τ)
  | parse (task : Task α τ) (parser : Parser) (describe : α → String) (input : Array α)
  | reset
  | rewind (point : Checkpoint)
  | storeRef (name : String) (range : Range)

variable {α τ : Type} [Atom α]

def Task.onSpan (task : Task α τ) : SpanAction α τ :=
  task.grammar.runOn task.order task.depth task.matcher

def Task.action (task : Task α τ) (window : Window α) : Action τ :=
  task.grammar.run task.order task.depth window task.matcher

def Task.reading (task : Task α τ) (window : Window α) : Reading τ :=
  task.grammar.reading task.order task.depth window task.matcher

/-- Run a matcher on its part of the input, which has to be one. -/
def Match.run (attempt : Match α τ) (ctx : Context τ) : Except Fault (Span α × Context τ) := do
  let span ← Span.between attempt.source attempt.cursor attempt.limit
  attempt.onSpan ctx span

def Step.run : Step α τ → Context τ → Except Fault (Context τ)
  | matching attempt, ctx => do
      let (_, ctx) ← attempt.run ctx
      return ctx
  | parse task parser describe input, ctx => do
      let (_, ctx) ← parser.runOn describe task.onSpan ctx input
      return ctx
  | reset, ctx => .ok ctx.reset
  | rewind point, ctx => ctx.rewind point
  | storeRef name range, ctx => ctx.storeRef name range

def run : List (Step α τ) → Context τ → Except Fault (Context τ)
  | [], ctx => .ok ctx
  | step :: rest, ctx => do
      let ctx ← step.run ctx
      run rest ctx

/-- The contexts in which a session may begin: text contexts and tree contexts. -/
inductive Fresh : Bool → Context τ → Prop where
  | text : Fresh false .text
  | tree {ctx : Context τ} (capacity : Nat) (opened : Context.tree capacity = .ok ctx) :
      Fresh true ctx

variable {builds : Bool} {ctx ctx' : Context τ} {refs : List Backref} {trees : List (MarkedTree τ)}

theorem Fresh.tracks (fresh : Fresh builds ctx) : ctx.Tracks [] [] builds := by
  cases fresh with
  | text => exact .text (by simp)
  | tree capacity opened =>
      simp only [Context.tree, Arena.withCapacity] at opened
      split at opened
      · cases opened
      · next positive =>
          cases opened
          have stacked := Arena.stacks_empty (α := Node τ) capacity (Nat.pos_of_ne_zero positive)
          exact .tree (Forest.represents_empty stacked) (by simp)

/-- A new tree context, with pages of two nodes: a short session fills several of them. -/
def smallTree : Context τ :=
  ⟨some .empty, some (.empty (.empty 2)), #[]⟩

theorem opened_smallTree : Context.tree 2 = .ok (smallTree : Context τ) := rfl

theorem fresh_smallTree : Fresh true (smallTree : Context τ) := .tree 2 opened_smallTree

theorem tracks_freshTree : (Context.freshTree : Context τ).Tracks [] [] true := by
  have opened : Context.tree Arena.defaultCapacity = .ok (Context.freshTree : Context τ) := rfl
  exact (Fresh.tree _ opened).tracks

/-! ## One step -/

theorem Match.run_of_inside (attempt : Match α τ)
    (inside : attempt.cursor ≤ attempt.limit ∧ attempt.limit ≤ attempt.source.size)
    (ctx : Context τ) :
    attempt.run ctx =
      attempt.action ⟨attempt.source, attempt.limit⟩ ctx attempt.cursor >>= fun answer =>
        .ok (answer.1.toSpan attempt.source attempt.limit, answer.2) := by
  unfold Match.run Span.between
  rw [if_pos inside, Fault.ok_bind]
  exact attempt.grammar.runOn_eq inside attempt.depth attempt.matcher ctx

theorem Match.run_of_outside (attempt : Match α τ)
    (outside : ¬(attempt.cursor ≤ attempt.limit ∧ attempt.limit ≤ attempt.source.size))
    (ctx : Context τ) :
    attempt.run ctx =
      .error (.spanBounds attempt.cursor attempt.limit attempt.source.size) := by
  unfold Match.run Span.between
  rw [if_neg outside]
  rfl

theorem Match.run_eq_ok {attempt : Match α τ} {span : Span α} :
    attempt.run ctx = .ok (span, ctx') ↔
      (attempt.cursor ≤ attempt.limit ∧ attempt.limit ≤ attempt.source.size) ∧
      ∃ verdict, attempt.action ⟨attempt.source, attempt.limit⟩ ctx attempt.cursor =
          .ok (verdict, ctx') ∧
        span = verdict.toSpan attempt.source attempt.limit := by
  by_cases inside : attempt.cursor ≤ attempt.limit ∧ attempt.limit ≤ attempt.source.size
  · rw [attempt.run_of_inside inside, Fault.bind_eq_ok]
    constructor
    · rintro ⟨⟨verdict, after⟩, acted, same⟩
      cases same
      exact ⟨inside, verdict, acted, rfl⟩
    · rintro ⟨-, verdict, acted, rfl⟩
      exact ⟨_, acted, rfl⟩
  · rw [attempt.run_of_outside inside]
    constructor
    · intro same
      cases same
    · rintro ⟨inside', -⟩
      exact absurd inside' inside

theorem Task.runOn_eq (task : Task α τ) (parser : Parser) (describe : α → String)
    (ctx : Context τ) (input : Array α) :
    parser.runOn describe task.onSpan ctx input = parser.run describe task.action ctx input :=
  parser.runOn_eq describe task.grammar task.depth task.matcher ctx input

theorem Task.realizes (task : Task α τ) (window : Window α) :
    (task.action window).Realizes (task.reading window) :=
  task.grammar.run_realizes task.depth task.matcher

/-- A task adds to what a context tracks, whether it matches or fails. -/
theorem Task.tracks {task : Task α τ} {window : Window α} {cursor : Nat} {verdict : Verdict}
    (acted : task.action window ctx cursor = .ok (verdict, ctx'))
    (tracks : ctx.Tracks refs trees builds) :
    ∃ stored new, ctx'.Tracks (refs ++ stored) (trees ++ new) builds := by
  have agree := task.realizes window builds ctx refs trees cursor tracks
  rw [acted] at agree
  obtain ⟨outcome, -, tells⟩ := agree.of_ok
  cases tells with
  | matched tracks' => exact ⟨_, _, tracks'⟩
  | failed tracks' => exact ⟨_, _, tracks'⟩

theorem Match.tracks {attempt : Match α τ} {span : Span α} (ran : attempt.run ctx = .ok (span, ctx'))
    (tracks : ctx.Tracks refs trees builds) :
    ∃ stored new, ctx'.Tracks (refs ++ stored) (trees ++ new) builds := by
  obtain ⟨-, verdict, acted, -⟩ := Match.run_eq_ok.mp ran
  exact Task.tracks acted tracks

omit [Atom α] in
/-- A parser that wants the whole input refuses a match that leaves something over. -/
theorem conclude_full {parser : Parser} (full : parser.full = true) (describe : α → String)
    (input : Array α) (ctx : Context τ) (next : Nat) :
    parser.conclude describe input ctx (.matched next) =
      (if next < input.size then .error (.trailing ⟨next, input.size⟩) else .ok next,
        ctx.emit (.parseMatched parser.nonterminal next input.size)) := by
  simp only [Parser.conclude, full, Bool.true_and, decide_eq_true_eq]
  split <;> rfl

omit [Atom α] in
theorem tracks_conclude (parser : Parser) (describe : α → String) (input : Array α)
    (verdict : Verdict) (tracks : ctx.Tracks refs trees builds) :
    (parser.conclude describe input ctx verdict).2.Tracks refs trees builds := by
  cases verdict with
  | failed offset => exact tracks.emit _
  | matched consumed =>
      simp only [Parser.conclude]
      split
      · exact tracks.emit _
      · exact tracks.emit _

omit [Atom α] in
theorem offset_unexpected (parser : Parser) (describe : α → String) (input : Array α)
    (offset : Nat) : (parser.unexpected describe input offset).offset = offset := by
  unfold Parser.unexpected
  split <;> rfl

omit [Atom α] in
theorem exists_unexpected (parser : Parser) (describe : α → String) (input : Array α)
    (offset : Nat) :
    ∃ range detail, parser.unexpected describe input offset =
      .unexpected range parser.nonterminal detail := by
  unfold Parser.unexpected
  split
  · exact ⟨_, _, rfl⟩
  · exact ⟨_, _, rfl⟩

theorem failed_of_unexpected {task : Task α τ} {parser : Parser}
    {describe : α → String} {input : Array α} {range : Range} {name detail : String}
    (ran : parser.runOn describe task.onSpan ctx input =
      .ok (.error (.unexpected range name detail), ctx')) :
    ∃ after, task.action ⟨input, input.size⟩ (if parser.reset then ctx.reset else ctx) 0 =
        .ok (.failed range.start, after) ∧
      ctx' = after.emit (.parseFailed parser.nonterminal range.start input.size) := by
  rw [task.runOn_eq] at ran
  obtain ⟨⟨verdict, after⟩, acted, concluded⟩ := Fault.bind_eq_ok.mp ran
  have answered := congrArg Prod.fst (Except.ok.inj concluded)
  have left := congrArg Prod.snd (Except.ok.inj concluded)
  cases verdict with
  | matched consumed =>
      simp only [Parser.conclude] at answered
      split at answered
      · cases answered
      · cases answered
  | failed offset =>
      have located := congrArg ParseError.offset (Except.error.inj answered)
      rw [offset_unexpected] at located
      cases located
      exact ⟨after, acted, left.symm⟩

theorem tracks_parse {task : Task α τ} {parser : Parser} {describe : α → String} {input : Array α}
    {answer : Except ParseError Nat}
    (ran : parser.runOn describe task.onSpan ctx input = .ok (answer, ctx'))
    (tracks : ctx.Tracks refs trees builds) : ∃ refs' trees', ctx'.Tracks refs' trees' builds := by
  rw [task.runOn_eq] at ran
  obtain ⟨⟨verdict, after⟩, acted, same⟩ := Fault.bind_eq_ok.mp ran
  have concluded : (parser.conclude describe input after verdict).2 = ctx' := by
    have concluded := Except.ok.inj same
    rw [concluded]
  rw [← concluded]
  cases emptied : parser.reset with
  | true =>
      rw [emptied, if_pos rfl] at acted
      obtain ⟨stored, new, tracks'⟩ := Task.tracks acted tracks.reset
      exact ⟨_, _, tracks_conclude parser describe input verdict tracks'⟩
  | false =>
      rw [emptied, if_neg (by simp)] at acted
      obtain ⟨stored, new, tracks'⟩ := Task.tracks acted tracks
      exact ⟨_, _, tracks_conclude parser describe input verdict tracks'⟩

section Whole

variable {task : Task α τ} {parser : Parser} {input : Array α}

/-- A parse of a whole input on an emptied context answers as its reading does and keeps what its
reading builds. -/
theorem run_of_matched (full : parser.full = true) (emptied : parser.reset = true) {next : Nat}
    {new : List (MarkedTree τ)} {stored : List Backref} (tracks : ctx.Tracks refs trees builds)
    (read : task.reading ⟨input, input.size⟩ [] 0 = .ok (.matched next new stored))
    (describe : α → String) :
    ∃ ctx', ctx'.Tracks stored new builds ∧
      parser.runOn describe task.onSpan ctx input =
        .ok (if next < input.size then .error (.trailing ⟨next, input.size⟩) else .ok next, ctx') := by
  have agree := task.realizes ⟨input, input.size⟩ builds ctx.reset [] [] 0 tracks.reset
  rw [read] at agree
  obtain ⟨⟨verdict, after⟩, acted, tells⟩ := agree.symm.of_ok
  cases tells with
  | matched tracks' =>
      refine ⟨_, tracks'.emit (.parseMatched parser.nonterminal next input.size), ?_⟩
      rw [task.runOn_eq]
      simp only [Parser.run, emptied, if_true, acted, Fault.ok_bind, conclude_full full,
        Fault.pure_eq_ok]

theorem run_of_failed (emptied : parser.reset = true) {offset : Nat}
    (tracks : ctx.Tracks refs trees builds)
    (read : task.reading ⟨input, input.size⟩ [] 0 = .ok (.failed offset)) (describe : α → String) :
    ∃ ctx', parser.runOn describe task.onSpan ctx input =
      .ok (.error (parser.unexpected describe input offset), ctx') := by
  have agree := task.realizes ⟨input, input.size⟩ builds ctx.reset [] [] 0 tracks.reset
  rw [read] at agree
  obtain ⟨⟨verdict, after⟩, acted, tells⟩ := agree.symm.of_ok
  cases tells with
  | failed tracks' =>
      refine ⟨after.emit (.parseFailed parser.nonterminal offset input.size), ?_⟩
      rw [task.runOn_eq]
      simp only [Parser.run, emptied, if_true, acted, Fault.ok_bind, Parser.conclude,
        Fault.pure_eq_ok]

end Whole

theorem Step.tracks {step : Step α τ} (ran : step.run ctx = .ok ctx')
    (tracks : ctx.Tracks refs trees builds) : ∃ refs' trees', ctx'.Tracks refs' trees' builds := by
  cases step with
  | matching attempt =>
      obtain ⟨⟨span, after⟩, acted, same⟩ := Fault.bind_eq_ok.mp ran
      cases same
      obtain ⟨stored, new, tracks'⟩ := attempt.tracks acted tracks
      exact ⟨_, _, tracks'⟩
  | parse task parser describe input =>
      obtain ⟨⟨answer, after⟩, acted, same⟩ := Fault.bind_eq_ok.mp ran
      cases same
      exact tracks_parse acted tracks
  | reset =>
      cases ran
      exact ⟨_, _, tracks.reset⟩
  | rewind point =>
      obtain ⟨keep, drop, -, tracks'⟩ := tracks.rewind ran
      exact ⟨_, _, tracks'⟩
  | storeRef name range =>
      obtain ⟨after, kept, tracks'⟩ := tracks.storeRef name range
      rw [Step.run, kept] at ran
      cases ran
      exact ⟨_, _, tracks'⟩

/-! ## Whole sessions -/

theorem run_append (front back : List (Step α τ)) (ctx : Context τ) :
    run (front ++ back) ctx = run front ctx >>= run back := by
  induction front generalizing ctx with
  | nil => rfl
  | cons step rest ih => simp only [List.cons_append, run, ih, bind_assoc]

theorem tracks_run {steps : List (Step α τ)} (ran : run steps ctx = .ok ctx')
    (tracks : ctx.Tracks refs trees builds) : ∃ refs' trees', ctx'.Tracks refs' trees' builds := by
  induction steps generalizing ctx refs trees with
  | nil =>
      cases ran
      exact ⟨_, _, tracks⟩
  | cons step rest ih =>
      obtain ⟨after, stepped, goesOn⟩ := Fault.bind_eq_ok.mp ran
      obtain ⟨refs', trees', tracks'⟩ := step.tracks stepped tracks
      exact ih goesOn tracks'

/-- The forest of a tree context is well-formed after every session. -/
theorem wellFormed_of_run {capacity : Nat} {start ctx : Context τ} {steps : List (Step α τ)}
    (opened : Context.tree capacity = .ok start) (ran : run steps start = .ok ctx) :
    ∃ forest, ctx.forest = some forest ∧ forest.WellFormed := by
  have fresh : Fresh true start := .tree capacity opened
  obtain ⟨refs, trees, tracks⟩ := tracks_run ran fresh.tracks
  cases tracks with
  | tree represents sound => exact ⟨_, rfl, represents.wellFormed sound⟩

def byteMatch (matcher : Matcher UInt8 Nat Empty) (source : Array UInt8) : Match UInt8 Nat :=
  { grammar := fun rule => nomatch rule
    order := .natural
    depth := 0
    matcher := matcher
    source := source
    cursor := 0
    limit := source.size }

/-- A node over one byte, and a marked node over the next one that adopts it. -/
def adopting : Match UInt8 Nat :=
  byteMatch (.promote (.seq [.node (some 1) false (.literal [1]), .node (some 2) true (.literal [2])]))
    #[1, 2]

/-- A node over one byte and then a failure, which leaves the node behind. -/
def abandoned : Match UInt8 Nat :=
  byteMatch (.seq [.node (some 1) false (.literal [1]), .literal [3]]) #[1, 2]

theorem abandoned_returns : ∃ ctx, run [.matching abandoned] smallTree = .ok ctx :=
  Fault.exists_of_toBool (by decide +kernel)

theorem wellFormed_of_run_adopting :
    ∃ start ctx : Context Nat, Context.tree 2 = .ok start ∧
      run [.matching adopting, .matching abandoned, .rewind ⟨some 1, 0⟩] start = .ok ctx ∧
      ∃ forest, ctx.forest = some forest ∧ forest.WellFormed := by
  have returns : (run [.matching adopting, .matching abandoned, .rewind ⟨some 1, 0⟩]
      smallTree).toBool = true := by decide +kernel
  obtain ⟨ctx, ran⟩ := Fault.exists_of_toBool returns
  exact ⟨_, ctx, opened_smallTree, ran, wellFormed_of_run opened_smallTree ran⟩

/-! ## Rewinding -/

theorem tracks_matches {attempts : List (Match α τ)}
    (ran : run (attempts.map Step.matching) ctx = .ok ctx') (tracks : ctx.Tracks refs trees builds) :
    ∃ stored new, ctx'.Tracks (refs ++ stored) (trees ++ new) builds := by
  induction attempts generalizing ctx refs trees with
  | nil =>
      cases ran
      exact ⟨[], [], by simpa using tracks⟩
  | cons attempt rest ih =>
      obtain ⟨middle, stepped, goesOn⟩ := Fault.bind_eq_ok.mp ran
      obtain ⟨⟨span, after⟩, acted, same⟩ := Fault.bind_eq_ok.mp stepped
      cases same
      obtain ⟨stored, new, tracks'⟩ := attempt.tracks acted tracks
      obtain ⟨stored', new', tracks''⟩ := ih goesOn tracks'
      rw [List.append_assoc, List.append_assoc] at tracks''
      exact ⟨_, _, tracks''⟩

/-- Two forests with the same roots and the same nodes; what they have counted and how many slabs
they hold may differ. -/
structure SameNodes (forest other : Forest τ) : Prop where
  head : forest.head = other.head
  tail : forest.tail = other.tail
  size : forest.size = other.size
  liveBytes : ∀ slot, forest.liveBytes slot = other.liveBytes slot
  node : ∀ id, forest.node id = other.node id

theorem SameNodes.of_represents {forest other : Forest τ} (represents : forest.Represents trees)
    (represents' : other.Represents trees) : SameNodes forest other := by
  have size : forest.size = other.size := represents.size_eq.trans represents'.size_eq.symm
  exact ⟨represents.head.trans represents'.head.symm, represents.tail.trans represents'.tail.symm,
    size, fun slot => congrArg (· * slot) size, represents.node_congr represents'⟩

/-- What a context has after a session, matches that follow leave as it is: a rewind to a checkpoint
that was taken before them succeeds and undoes them, however each of them ended. -/
theorem rewind_after_matches {start ctx ctx' : Context τ} {steps : List (Step α τ)}
    {attempts : List (Match α τ)} (fresh : Fresh builds start) (reached : run steps start = .ok ctx)
    (ran : run (attempts.map Step.matching) ctx = .ok ctx') :
    ∃ ctx'', ctx'.rewind ctx.checkpoint = .ok ctx'' ∧ ctx''.refs = ctx.refs ∧
      Option.Rel SameNodes ctx''.forest ctx.forest := by
  obtain ⟨refs, trees, tracks⟩ := tracks_run reached fresh.tracks
  obtain ⟨stored, new, tracks'⟩ := tracks_matches ran tracks
  obtain ⟨ctx'', rewound, tracks''⟩ := tracks.rewind_checkpoint tracks'
  refine ⟨ctx'', rewound, tracks''.refs_eq.trans tracks.refs_eq.symm, ?_⟩
  cases tracks with
  | tree represents _ =>
      cases tracks'' with
      | tree represents'' _ => exact .some (.of_represents represents'' represents)
  | text _ =>
      cases tracks'' with
      | text _ => exact .none

theorem rewind_after_matches_abandoned :
    ∃ start ctx ctx' : Context Nat, Fresh true start ∧
      run [.matching adopting, .storeRef "n" ⟨0, 1⟩] start = .ok ctx ∧
      run ([abandoned, adopting].map Step.matching) ctx = .ok ctx' ∧
      ∃ ctx'', ctx'.rewind ctx.checkpoint = .ok ctx'' ∧ ctx''.refs = ctx.refs ∧
        Option.Rel SameNodes ctx''.forest ctx.forest := by
  have returns : (run ([.matching adopting, .storeRef "n" ⟨0, 1⟩] ++
      [abandoned, adopting].map Step.matching) smallTree).toBool = true := by decide +kernel
  obtain ⟨ctx', both⟩ := Fault.exists_of_toBool returns
  obtain ⟨ctx, reached, ran⟩ := Fault.bind_eq_ok.mp ((run_append _ _ smallTree).symm.trans both)
  exact ⟨_, ctx, ctx', fresh_smallTree, reached, ran,
    rewind_after_matches fresh_smallTree reached ran⟩

end PegForest.Session
