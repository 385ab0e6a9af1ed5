import PegForest.Proofs.Calculator.Evaluate
import PegForest.Proofs.Calculator.Locate
import PegForest.Proofs.Isolation

/-!
# The tree that a calculator shows

A calculator is asked to split sources into tokens, or to parse, to render or to evaluate them, one
after another.  A source that the lexer refuses never gets to the parser and leaves the tree as it
was.  Every other source that is to be parsed empties the tree first.  Then the tree is what the
match of the tokens leaves behind: the tree of the longest expression that the tokens begin with,
even if tokens are left over, and nothing if they begin with no expression.

So the tree comes from the last request that got to the parser.  It is the tree of the last request
that was accepted as long as the parser has refused nothing since, and it is lost when the parser
refuses a source.
-/

set_option autoImplicit false

namespace PegForest.Calculator

inductive Request where
  | tokenize (source : String)
  | parse (source : String)
  | render (source : String)
  | evaluate (source : String) (bindings : List (String × Int))
  deriving DecidableEq

namespace Request

/-- The source that is to become a tree; splitting a source makes no tree. -/
def expression? : Request → Option String
  | tokenize _ => none
  | parse source => some source
  | render source => some source
  | evaluate source _ => some source

def ask (state : Calculator) : Request → Except Fault (Except ParseError Unit × Calculator)
  | tokenize source => do
      let (answer, state) ← state.tokenize source
      return (answer.map fun _ => (), state)
  | parse source => state.parse source
  | render source => do
      let (answer, state) ← state.render source
      return (answer.map fun _ => (), state)
  | evaluate source bindings => do
      let (answer, state) ← state.evaluate source bindings
      return (answer.map fun _ => (), state)

end Request

structure Exchange where
  request : Request
  answer : Except ParseError Unit
  deriving DecidableEq

def askAll : List Request → Calculator → Except Fault (List Exchange × Calculator)
  | [], state => .ok ([], state)
  | request :: rest, state => do
      let (answer, state) ← request.ask state
      let (later, state) ← askAll rest state
      return (⟨request, answer⟩ :: later, state)

/-- The request has got to the parser: it is about an expression, and it is not the lexer that
refuses it. -/
def Exchange.parsed (exchange : Exchange) : Bool :=
  exchange.request.expression?.isSome && match exchange.answer with
    | .error (.unexpected _ nonterminal _) => nonterminal != tokenParser.nonterminal
    | _ => true

/-- The tokens of a source, on every calculator. -/
def Splits (source : String) (tokens : Array Token) : Prop :=
  ∀ state, Reached state → ∃ lexed, state.tokenize source = .ok (.ok tokens, lexed)

/-- The trees that the parser leaves behind when it answers about some tokens. -/
inductive Builds (tokens : Array Token) :
    Except ParseError Unit → List (MarkedTree Tag) → Prop where
  | whole (phrase : Phrase .sum) (derives : phrase.tokens = kindsOf tokens) :
      Builds tokens (.ok ()) [phrase.tree 0]
  | front (phrase : Phrase .sum) (range : Range) (begins : phrase.tokens <+: kindsOf tokens)
      (partly : phrase.tokens ≠ kindsOf tokens)
      (longest : ∀ other : Phrase .sum, other.tokens <+: kindsOf tokens →
        other.length ≤ phrase.length) :
      Builds tokens (.error (.trailing range)) [phrase.tree 0]
  | nothing (range : Range) (detail : String)
      (none_begins : ∀ phrase : Phrase .sum, ¬phrase.tokens <+: kindsOf tokens) :
      Builds tokens (.error (.unexpected range expressionParser.nonterminal detail)) []

def Exchange.Leaves (exchange : Exchange) (trees : List (MarkedTree Tag)) : Prop :=
  ∃ source tokens, exchange.request.expression? = some source ∧ Splits source tokens ∧
    Builds tokens exchange.answer trees

/-- The trees that are shown after a history, given those that were shown before it. -/
structure Shows (start : List (MarkedTree Tag)) (history : List Exchange)
    (trees : List (MarkedTree Tag)) : Prop where
  kept : (∀ exchange ∈ history, exchange.parsed = false) → trees = start
  decided : ∀ before exchange later, history = before ++ exchange :: later →
    exchange.parsed = true → (∀ other ∈ later, other.parsed = false) → exchange.Leaves trees

variable {state after lexed : Calculator} {source : String} {tokens : Array Token}
  {refs : List Backref} {trees : List (MarkedTree Tag)}

/-! ## What the parser leaves behind -/

theorem settles_chain (window : Window TokenKind) (depth : Nat)
    (operand : Matcher TokenKind Tag Rule) (operators : List (Matcher TokenKind Tag Rule)) :
    (grammar.run .natural depth window (chain operand operators)).Settles := by
  have inner :
      (grammar.run .natural depth window (.seq [operand, .star (.choice operators)])).Realizes
        (grammar.reading .natural depth window (.seq [operand, .star (.choice operators)])) :=
    grammar.run_realizes depth _
  exact inner.attempt_settles.promote

theorem settles_expression (kinds : Array TokenKind) :
    ((expressionTask kinds).action ⟨kinds, kinds.size⟩).Settles :=
  settles_chain ⟨kinds, kinds.size⟩ kinds.size _ _

theorem run_builds {ctx : Context Tag} (tracks : ctx.Tracks refs trees true) (tokens : Array Token)
    (size : Nat) :
    ∃ answer ctx' trees', expressionParser.runOn Atom.describe
        (expressionTask (tokens.map Token.kind)).onSpan ctx (tokens.map Token.kind) =
          .ok (answer, ctx') ∧
      ctx'.Tracks [] trees' true ∧
      Builds tokens ((answer.mapError (locate tokens size)).map fun _ => ()) trees' := by
  have kinds : (tokens.map Token.kind).toList = kindsOf tokens := by simp [kindsOf]
  have count : (tokens.map Token.kind).size = tokens.size := Array.size_map
  have count' : (kindsOf tokens).length = tokens.size := by simp [kindsOf]
  have short : (kindsOf tokens).length < tokens.size + 1 := Nat.lt_succ_of_le (Nat.le_of_eq count')
  have recognizes : Recognizes (l := .sum) (tokens.size + 1)
      (takeRule (tokens.size + 1) .expression) := recognizes_takeRule _ _
  have ran := run_expression tracks (tokens.map Token.kind)
  rw [kinds, count] at ran
  rcases ran with ⟨phrase, rest, ctx', taken, tracks', ran⟩ | ⟨offset, ctx', refused, ran⟩
  · have begins : phrase.tokens <+: kindsOf tokens := ⟨rest, (recognizes.sound taken).symm⟩
    refine ⟨_, ctx', _, ran, tracks', ?_⟩
    rw [answerOf, count]
    by_cases more : phrase.length < tokens.size
    · rw [if_pos more]
      refine .front phrase _ begins ?_ fun _ => recognizes.le_of_isPrefix short taken
      intro whole
      rw [Phrase.length, whole, count'] at more
      exact Nat.lt_irrefl _ more
    · rw [if_neg more]
      exact .whole phrase (whole_of_begins begins more)
  · obtain ⟨range, detail, unexpected⟩ :=
      Session.exists_unexpected expressionParser Atom.describe (tokens.map Token.kind) offset
    rw [unexpected] at ran
    have tracks' := Session.tracks_of_unexpected rfl (settles_expression _) tracks ran
    refine ⟨_, ctx', [], ran, tracks', ?_⟩
    exact .nothing _ detail ((recognizes.eq_none_iff short).mp refused)

/-! ## One request -/

/-- A source has tokens, whatever the calculator, or the lexer refuses it. -/
theorem tokenize_cases (reached : Reached state) (source : String) :
    (∃ tokens lexed, state.tokenize source = .ok (.ok tokens, lexed) ∧ Splits source tokens) ∨
      ∃ range detail lexed, state.tokenize source =
        .ok (.error (.unexpected range tokenParser.nonterminal detail), lexed) := by
  obtain ⟨refs, trees, tracks⟩ := reached.tracks_lexer
  obtain ⟨tokens, rest, tiling⟩ := exists_tiling source
  by_cases ended : rest = []
  · subst ended
    obtain ⟨lexed, lexes⟩ := tokenize_of_whole reached tiling
    exact .inl ⟨_, lexed, lexes, fun other reached' => tokenize_of_whole reached' tiling⟩
  · obtain ⟨next, lexed, -, lexes⟩ := tokenize_of_tiling tracks tiling
    obtain ⟨range, detail, unexpected⟩ :=
      Session.exists_unexpected tokenParser Text.byteLiteral (Text.Utf8.encode source) next
    rw [if_neg ended, unexpected] at lexes
    exact .inr ⟨range, detail, lexed, lexes⟩

theorem parse_of_refusal {error : ParseError}
    (lexes : state.tokenize source = .ok (.error error, lexed)) :
    state.parse source = .ok (.error error, lexed) := by
  simp only [parse, lexes, Fault.ok_bind]
  rfl

variable {request : Request} {answer : Except ParseError Unit}

theorem ask_of_parse (reached : Reached state) (wants : request.expression? = some source)
    (parsed : state.parse source = .ok (answer, after)) :
    request.ask state = .ok (answer, after) := by
  cases request with
  | tokenize _ => cases wants
  | parse _ =>
      cases wants
      exact parsed
  | render _ =>
      cases wants
      cases answer with
      | error error =>
          rw [Request.ask, render_eq, parseThen_of_error parsed]
          rfl
      | ok _ =>
          obtain ⟨tokens, lexed, phrase, -, -, kept, tracks⟩ := phrase_of_parse reached parsed
          rw [Request.ask, render_of_parse parsed kept tracks]
          rfl
  | evaluate _ bindings =>
      cases wants
      cases answer with
      | error error =>
          rw [Request.ask, evaluate_eq, parseThen_of_error parsed]
          rfl
      | ok _ =>
          obtain ⟨tokens, lexed, phrase, -, -, kept, tracks⟩ := phrase_of_parse reached parsed
          rw [Request.ask, evaluate_of_parse parsed kept tracks]
          rfl

theorem Builds.parsed (builds : Builds tokens answer trees)
    (wants : request.expression? = some source) : (Exchange.mk request answer).parsed = true := by
  rw [Exchange.parsed, wants]
  cases builds <;> rfl

/-- What a request does to the trees that are shown. -/
structure Exchange.Changes (exchange : Exchange) (trees trees' : List (MarkedTree Tag)) : Prop where
  kept : exchange.parsed = false → trees' = trees
  decided : exchange.parsed = true → exchange.Leaves trees'

theorem parse_changes (reached : Reached state) (tracks : state.parser.Tracks refs trees true)
    (wants : request.expression? = some source) :
    ∃ answer after trees', state.parse source = .ok (answer, after) ∧
      (∃ refs', after.parser.Tracks refs' trees' true) ∧
      (Exchange.mk request answer).Changes trees trees' := by
  rcases tokenize_cases reached source with
    ⟨tokens, lexed, lexes, splits⟩ | ⟨range, detail, lexed, lexes⟩
  · rw [← parser_of_tokenize lexes] at tracks
    obtain ⟨found, ctx, trees', ran, tracks', builds⟩ :=
      run_builds tracks tokens (Text.Utf8.encode source).size
    refine ⟨_, _, trees', parse_of_run lexes ran, ⟨[], tracks'⟩, ?_, ?_⟩
    · intro unparsed
      rw [builds.parsed wants] at unparsed
      cases unparsed
    · intro _
      exact ⟨source, tokens, wants, splits, builds⟩
  · rw [← parser_of_tokenize lexes] at tracks
    refine ⟨_, lexed, trees, parse_of_refusal lexes, ⟨refs, tracks⟩, fun _ => rfl, ?_⟩
    intro parsed
    simp [Exchange.parsed] at parsed

theorem ask_changes (reached : Reached state) (tracks : state.parser.Tracks refs trees true)
    (request : Request) :
    ∃ answer after trees', request.ask state = .ok (answer, after) ∧ Reached after ∧
      (∃ refs', after.parser.Tracks refs' trees' true) ∧
      (Exchange.mk request answer).Changes trees trees' := by
  cases wants : request.expression? with
  | some source =>
      obtain ⟨answer, after, trees', parsed, tracks', changes⟩ :=
        parse_changes reached tracks wants
      exact ⟨answer, after, trees', ask_of_parse reached wants parsed, .parse reached parsed,
        tracks', changes⟩
  | none =>
      cases request with
      | tokenize source =>
          obtain ⟨found, lexed, lexes⟩ :
              ∃ found lexed, state.tokenize source = .ok (found, lexed) := by
            rcases tokenize_cases reached source with
              ⟨tokens, lexed, lexes, -⟩ | ⟨range, detail, lexed, lexes⟩
            · exact ⟨_, lexed, lexes⟩
            · exact ⟨_, lexed, lexes⟩
          refine ⟨found.map fun _ => (), lexed, trees, ?_, .tokenize reached lexes, ⟨refs, ?_⟩,
            fun _ => rfl, nofun⟩
          · rw [Request.ask, lexes]
            rfl
          · rw [parser_of_tokenize lexes]
            exact tracks
      | parse _ => cases wants
      | render _ => cases wants
      | evaluate _ _ => cases wants

/-! ## Histories -/

theorem Shows.cons {start middle : List (MarkedTree Tag)} {exchange : Exchange}
    {history : List Exchange} (changes : exchange.Changes start middle)
    (shows : Shows middle history trees) : Shows start (exchange :: history) trees where
  kept := by
    intro unparsed
    rw [List.forall_mem_cons] at unparsed
    exact (shows.kept unparsed.2).trans (changes.kept unparsed.1)
  decided := by
    intro before last later split parsed unparsed
    cases before with
    | nil =>
        cases split
        rw [shows.kept unparsed]
        exact changes.decided parsed
    | cons first before =>
        cases split
        exact shows.decided before last later rfl parsed unparsed

theorem askAll_shows (requests : List Request) (reached : Reached state)
    (tracks : state.parser.Tracks refs trees true) :
    ∃ history after trees', askAll requests state = .ok (history, after) ∧
      history.map Exchange.request = requests ∧
      (∃ refs', after.parser.Tracks refs' trees' true) ∧ Shows trees history trees' := by
  induction requests generalizing state refs trees with
  | nil => exact ⟨[], state, trees, rfl, rfl, ⟨refs, tracks⟩, fun _ => rfl, by simp⟩
  | cons request rest ih =>
      obtain ⟨answer, middle, trees', asked, reached', ⟨refs', tracks'⟩, changes⟩ :=
        ask_changes reached tracks request
      obtain ⟨history, after, trees'', ran, listed, tracks'', shows⟩ := ih reached' tracks'
      refine ⟨⟨request, answer⟩ :: history, after, trees'', ?_, ?_, tracks'', shows.cons changes⟩
      · simp only [askAll, asked, ran, Fault.ok_bind, Fault.pure_eq_ok]
      · rw [List.map_cons, listed]

theorem Shows.accepted {start : List (MarkedTree Tag)} {history before later : List Exchange}
    {exchange : Exchange} (shows : Shows start history trees)
    (split : history = before ++ exchange :: later)
    (wants : exchange.request.expression? = some source) (accepts : exchange.answer = .ok ())
    (unparsed : ∀ other ∈ later, other.parsed = false) :
    ∃ tokens, ∃ phrase : Phrase .sum,
      Splits source tokens ∧ phrase.tokens = kindsOf tokens ∧ trees = [phrase.tree 0] := by
  have parsed : exchange.parsed = true := by rw [Exchange.parsed, wants, accepts]; rfl
  obtain ⟨source', tokens, wants', splits, builds⟩ :=
    shows.decided before exchange later split parsed unparsed
  rw [wants] at wants'
  rw [accepts] at builds
  cases wants'
  cases builds with
  | whole phrase derives => exact ⟨tokens, phrase, splits, derives, rfl⟩

/-- After any requests, a calculator shows what the last request that got to the parser has left.
If that request was accepted, this is the tree of its expression and nothing else: requests that
split sources or are refused by the lexer have left it there. -/
theorem tree_of_last_parsed (requests : List Request) :
    ∃ history after trees, askAll requests fresh = .ok (history, after) ∧
      history.map Exchange.request = requests ∧
      after.parser.forestD.Represents trees ∧ Shows [] history trees ∧
      ∀ before exchange later source, history = before ++ exchange :: later →
        exchange.request.expression? = some source → exchange.answer = .ok () →
        (∀ other ∈ later, other.parsed = false) →
        ∃ tokens, ∃ phrase : Phrase .sum,
          Splits source tokens ∧ phrase.tokens = kindsOf tokens ∧ trees = [phrase.tree 0] := by
  obtain ⟨history, after, trees, ran, listed, ⟨refs, tracks⟩, shows⟩ :=
    askAll_shows requests .fresh Session.tracks_freshTree
  exact ⟨history, after, trees, ran, listed, tracks.represents, shows,
    fun _ _ _ _ split wants accepts unparsed => shows.accepted split wants accepts unparsed⟩

/-- The tree of `1 + 2` outlasts a source that is only split and one that the lexer refuses. -/
theorem tree_of_last_parsed_kept :
    ∃ after, askAll [.evaluate "1 + 2" [], .tokenize "x", .render "1 $"] fresh =
        .ok ([⟨.evaluate "1 + 2" [], .ok ()⟩, ⟨.tokenize "x", .ok ()⟩,
          ⟨.render "1 $", .error (.unexpected ⟨2, 3⟩ "<tokens>" "unexpected b'$'")⟩], after) ∧
      ∃ phrase : Phrase .sum, phrase.tokens = [.number, .plus, .number] ∧
        after.parser.forestD.Represents [phrase.tree 0] := by
  have asked : (askAll [.evaluate "1 + 2" [], .tokenize "x", .render "1 $"] fresh >>= fun asked =>
      .ok asked.1) = .ok [⟨.evaluate "1 + 2" [], .ok ()⟩, ⟨.tokenize "x", .ok ()⟩,
        ⟨.render "1 $", .error (.unexpected ⟨2, 3⟩ "<tokens>" "unexpected b'$'")⟩] := by
    decide +kernel
  have kinds : (fresh.tokenize "1 + 2" >>= fun lexing => .ok (lexing.1.map kindsOf)) =
      .ok (.ok [.number, .plus, .number]) := by
    decide +kernel
  obtain ⟨history, after, trees, ran, -, represents, -, accepted⟩ :=
    tree_of_last_parsed [.evaluate "1 + 2" [], .tokenize "x", .render "1 $"]
  rw [ran, Fault.ok_bind, Except.ok.injEq] at asked
  subst asked
  obtain ⟨tokens, phrase, splits, derives, rfl⟩ :=
    accepted [] _ _ "1 + 2" rfl rfl rfl (by decide)
  obtain ⟨lexed, lexes⟩ := splits fresh .fresh
  rw [lexes, Fault.ok_bind] at kinds
  have listed : kindsOf tokens = [.number, .plus, .number] := Except.ok.inj (Except.ok.inj kinds)
  exact ⟨after, ran, phrase, derives.trans listed, represents⟩

/-- The tree of `1 + 2` does not outlast a source that the parser refuses. -/
theorem tree_lost_on_refusal :
    ∃ history after, askAll [.parse "1 + 2", .parse "(1"] fresh = .ok (history, after) ∧
      history.map (fun exchange => exchange.answer.toBool) = [true, false] ∧
      ∀ phrase : Phrase .sum, ¬after.parser.forestD.Represents [phrase.tree 0] := by
  have found : (askAll [.parse "1 + 2", .parse "(1"] fresh >>= fun asked =>
      .ok (asked.1.map (fun exchange => exchange.answer.toBool), asked.2.parser.forestD.head)) =
      .ok ([true, false], none) := by
    decide +kernel
  obtain ⟨⟨history, after⟩, ran, same⟩ := Fault.bind_eq_ok.mp found
  obtain ⟨answers, head⟩ := Prod.mk.inj (Except.ok.inj same)
  refine ⟨history, after, ran, answers, fun phrase represents => ?_⟩
  have root := represents.head
  rw [head] at root
  cases root

end PegForest.Calculator
