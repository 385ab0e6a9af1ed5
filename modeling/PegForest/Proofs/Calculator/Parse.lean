import PegForest.Language.Calculator.Evaluate
import PegForest.Proofs.Calculator.Follow
import PegForest.Proofs.Calculator.Language
import PegForest.Proofs.Calculator.Lex
import PegForest.Proofs.Calculator.Write
import PegForest.Proofs.Session

/-!
# Expressions that the calculator accepts

A calculator may have been used before, so its parser keeps a context of which only this is known:
that it tracks something.  A parse empties it first.

The match of the tokens has the outcome of its reading, the reading follows the taker of sums, and
the taker takes the longest sum at the front of the tokens.  So the answer is determined by the sums
that the tokens begin with: there is none, or the longest one leaves tokens over, or it is all there
is, and then the parser's forest is its tree.
-/

set_option autoImplicit false

namespace PegForest.Calculator

/-- The calculators that come about by use. -/
inductive Reached : Calculator → Prop where
  | fresh : Reached fresh
  | tokenize {state after : Calculator} {source : String}
      {answer : Except ParseError (Array Token)} (reached : Reached state)
      (ran : state.tokenize source = .ok (answer, after)) : Reached after
  | parse {state after : Calculator} {source : String} {answer : Except ParseError Unit}
      (reached : Reached state) (ran : state.parse source = .ok (answer, after)) : Reached after
  | render {state after : Calculator} {source : String} {answer : Except ParseError String}
      (reached : Reached state) (ran : state.render source = .ok (answer, after)) : Reached after
  | evaluate {state after : Calculator} {source : String} {bindings : List (String × Int)}
      {answer : Except ParseError (Option Int)} (reached : Reached state)
      (ran : state.evaluate source bindings = .ok (answer, after)) : Reached after

variable {state after lexed : Calculator} {source : String} {tokens : Array Token}

theorem parser_of_tokenize {answer : Except ParseError (Array Token)}
    (ran : state.tokenize source = .ok (answer, after)) : after.parser = state.parser := by
  obtain ⟨⟨lexing, lexer⟩, -, goesOn⟩ := Fault.bind_eq_ok.mp ran
  cases lexing with
  | error error =>
      cases goesOn
      rfl
  | ok consumed =>
      obtain ⟨tokens, -, same⟩ := Fault.bind_eq_ok.mp goesOn
      cases same
      rfl

theorem kept_of_tokenize (ran : state.tokenize source = .ok (.ok tokens, after)) :
    after.tokens = tokens ∧ after.kinds = tokens.map Token.kind := by
  obtain ⟨⟨lexing, lexer⟩, -, goesOn⟩ := Fault.bind_eq_ok.mp ran
  cases lexing with
  | error error => cases goesOn
  | ok consumed =>
      obtain ⟨found, -, same⟩ := Fault.bind_eq_ok.mp goesOn
      cases same
      exact ⟨rfl, rfl⟩

def expressionTask (kinds : Array TokenKind) : Session.Task TokenKind Tag :=
  { grammar := grammar, order := .natural, depth := kinds.size + 1, matcher := .rule .expression }

theorem tracks_of_parse {answer : Except ParseError Unit} {refs : List Backref}
    {trees : List (MarkedTree Tag)} (ran : state.parse source = .ok (answer, after))
    (tracks : state.parser.Tracks refs trees true) :
    ∃ refs' trees', after.parser.Tracks refs' trees' true := by
  obtain ⟨⟨lexing, lexed⟩, lexes, goesOn⟩ := Fault.bind_eq_ok.mp ran
  rw [← parser_of_tokenize lexes] at tracks
  cases lexing with
  | error error =>
      cases goesOn
      exact ⟨_, _, tracks⟩
  | ok tokens =>
      obtain ⟨⟨parsed, parser⟩, matched, same⟩ := Fault.bind_eq_ok.mp goesOn
      have matched' : expressionParser.runOn Atom.describe
          (expressionTask (tokens.map Token.kind)).onSpan lexed.parser (tokens.map Token.kind) =
          .ok (parsed, parser) := (kept_of_tokenize lexes).2 ▸ matched
      obtain ⟨refs', trees', tracks'⟩ := Session.tracks_parse matched' tracks
      cases parsed with
      | error error =>
          cases same
          exact ⟨_, _, tracks'⟩
      | ok consumed =>
          cases same
          exact ⟨_, _, tracks'⟩

/-- Parse a source and, if that succeeds, read something off the tree from its root on. -/
def parseThen {β γ : Type} (state : Calculator) (source : String)
    (read : Calculator → NodeId → Except Fault β) (finish : β → γ) (nothing : γ) :
    Except Fault (Except ParseError γ × Calculator) := do
  let (parsed, state) ← state.parse source
  match parsed with
  | .error error => return (.error error, state)
  | .ok () =>
      match state.parser.forestD.head with
      | none => return (.ok nothing, state)
      | some root =>
          let found ← read state root
          return (.ok (finish found), state)

theorem render_eq (state : Calculator) (source : String) :
    state.render source = state.parseThen source (fun state => writeNode state.parser.forestD
      state.tokens (Text.Utf8.encode source) (state.parser.forestD.size + 1)) String.ofList "" :=
  rfl

theorem evaluate_eq (state : Calculator) (source : String) (bindings : List (String × Int)) :
    state.evaluate source bindings = state.parseThen source (fun state =>
      evalNode state.parser.forestD state.tokens (Text.Utf8.encode source) bindings
        (state.parser.forestD.size + 1)) id none :=
  rfl

theorem parse_of_parseThen {β γ : Type} {read : Calculator → NodeId → Except Fault β}
    {finish : β → γ} {nothing : γ} {answer : Except ParseError γ}
    (ran : state.parseThen source read finish nothing = .ok (answer, after)) :
    ∃ parsed, state.parse source = .ok (parsed, after) := by
  obtain ⟨⟨parsed, middle⟩, parses, goesOn⟩ := Fault.bind_eq_ok.mp ran
  cases parsed with
  | error error =>
      cases goesOn
      exact ⟨_, parses⟩
  | ok _ =>
      dsimp only at goesOn
      split at goesOn
      · cases goesOn
        exact ⟨_, parses⟩
      · obtain ⟨found, -, same⟩ := Fault.bind_eq_ok.mp goesOn
        cases same
        exact ⟨_, parses⟩

theorem Reached.tracks (reached : Reached state) :
    ∃ refs trees, state.parser.Tracks refs trees true := by
  induction reached with
  | fresh => exact ⟨[], [], Session.tracks_freshTree⟩
  | tokenize _ ran ih =>
      rw [parser_of_tokenize ran]
      exact ih
  | parse _ ran ih =>
      obtain ⟨refs, trees, tracks⟩ := ih
      exact tracks_of_parse ran tracks
  | render _ ran ih =>
      obtain ⟨refs, trees, tracks⟩ := ih
      obtain ⟨parsed, parses⟩ := parse_of_parseThen ((render_eq _ _).symm.trans ran)
      exact tracks_of_parse parses tracks
  | evaluate _ ran ih =>
      obtain ⟨refs, trees, tracks⟩ := ih
      obtain ⟨parsed, parses⟩ := parse_of_parseThen ((evaluate_eq _ _ _).symm.trans ran)
      exact tracks_of_parse parses tracks

theorem lexer_of_tokenize {answer : Except ParseError (Array Token)}
    (ran : state.tokenize source = .ok (answer, after)) {refs : List Backref}
    {trees : List (MarkedTree TokenKind)} (tracks : state.lexer.Tracks refs trees true) :
    ∃ refs' trees', after.lexer.Tracks refs' trees' true := by
  obtain ⟨⟨lexing, lexer⟩, lexes, goesOn⟩ := Fault.bind_eq_ok.mp ran
  have lexes' : tokenParser.runOn Text.byteLiteral tokenTask.onSpan state.lexer
      (Text.Utf8.encode source) = .ok (lexing, lexer) := lexes
  obtain ⟨refs', trees', tracks'⟩ := Session.tracks_parse lexes' tracks
  cases lexing with
  | error error =>
      cases goesOn
      exact ⟨_, _, tracks'⟩
  | ok consumed =>
      obtain ⟨tokens, -, same⟩ := Fault.bind_eq_ok.mp goesOn
      cases same
      exact ⟨_, _, tracks'⟩

theorem lexer_of_parse {answer : Except ParseError Unit}
    (ran : state.parse source = .ok (answer, after)) :
    ∃ lexing lexed, state.tokenize source = .ok (lexing, lexed) ∧ after.lexer = lexed.lexer := by
  obtain ⟨⟨lexing, lexed⟩, lexes, goesOn⟩ := Fault.bind_eq_ok.mp ran
  refine ⟨lexing, lexed, lexes, ?_⟩
  cases lexing with
  | error error =>
      cases goesOn
      rfl
  | ok tokens =>
      obtain ⟨⟨parsed, parser⟩, -, same⟩ := Fault.bind_eq_ok.mp goesOn
      cases parsed with
      | error error =>
          cases same
          rfl
      | ok consumed =>
          cases same
          rfl

theorem Reached.tracks_lexer (reached : Reached state) :
    ∃ refs trees, state.lexer.Tracks refs trees true := by
  have parsed : ∀ {state after : Calculator} {source : String} {answer : Except ParseError Unit},
      state.parse source = .ok (answer, after) → (∃ refs trees, state.lexer.Tracks refs trees true) →
      ∃ refs trees, after.lexer.Tracks refs trees true := by
    rintro state after source answer ran ⟨refs, trees, tracks⟩
    obtain ⟨lexing, lexed, lexes, same⟩ := lexer_of_parse ran
    rw [same]
    exact lexer_of_tokenize lexes tracks
  induction reached with
  | fresh => exact ⟨[], [], Session.tracks_freshTree⟩
  | tokenize _ ran ih =>
      obtain ⟨refs, trees, tracks⟩ := ih
      exact lexer_of_tokenize ran tracks
  | parse _ ran ih => exact parsed ran ih
  | render _ ran ih =>
      obtain ⟨answer, parses⟩ := parse_of_parseThen ((render_eq _ _).symm.trans ran)
      exact parsed parses ih
  | evaluate _ ran ih =>
      obtain ⟨answer, parses⟩ := parse_of_parseThen ((evaluate_eq _ _ _).symm.trans ran)
      exact parsed parses ih

/-! ## The answer -/

def answerOf (kinds : Array TokenKind) (phrase : Phrase .sum) : Except ParseError Nat :=
  if phrase.length < kinds.size then .error (.trailing ⟨phrase.length, kinds.size⟩)
  else .ok phrase.length

/-- The parser answers by what the taker of sums takes, on whatever context it is used. -/
theorem run_expression {ctx : Context Tag} {refs : List Backref} {trees : List (MarkedTree Tag)}
    (tracks : ctx.Tracks refs trees true) (kinds : Array TokenKind) :
    (∃ phrase : Phrase .sum, ∃ rest ctx',
      takeRule (kinds.size + 1) .expression kinds.toList = some (phrase, rest) ∧
      ctx'.Tracks [] [phrase.tree 0] true ∧
      expressionParser.runOn Atom.describe (expressionTask kinds).onSpan ctx kinds =
        .ok (answerOf kinds phrase, ctx')) ∨
    ∃ offset ctx', takeRule (kinds.size + 1) .expression kinds.toList = none ∧
      expressionParser.runOn Atom.describe (expressionTask kinds).onSpan ctx kinds =
        .ok (.error (expressionParser.unexpected Atom.describe kinds offset), ctx') := by
  have full : expressionParser.full = true := rfl
  have emptied : expressionParser.reset = true := rfl
  have place : At kinds 0 kinds.toList := ⟨[], rfl, rfl⟩
  have short : kinds.toList.length < kinds.size + 1 := by simp
  rcases (follows_call (kinds.size + 1) .expression).cases [] place short with
    ⟨phrase, rest, read, taken, -⟩ | ⟨offset, read, taken⟩
  · rw [Nat.zero_add] at read
    have read' : (expressionTask kinds).reading ⟨kinds, kinds.size⟩ [] 0 =
      .ok (.matched phrase.length [phrase.tree 0] []) := read
    obtain ⟨ctx', tracks', ran⟩ :=
      Session.run_of_matched full emptied tracks read' Atom.describe
    exact .inl ⟨phrase, rest, ctx', taken, tracks', ran⟩
  · have read' : (expressionTask kinds).reading ⟨kinds, kinds.size⟩ [] 0 = .ok (.failed offset) :=
      read
    obtain ⟨ctx', ran⟩ := Session.run_of_failed emptied tracks read' Atom.describe
    exact .inr ⟨offset, ctx', taken, ran⟩

/-- A parse asks the parser about the kinds of the tokens and finds the place of its error in the
source. -/
theorem parse_of_run {answer : Except ParseError Nat} {ctx : Context Tag}
    (lexes : state.tokenize source = .ok (.ok tokens, lexed))
    (ran : expressionParser.runOn Atom.describe (expressionTask (tokens.map Token.kind)).onSpan
      lexed.parser (tokens.map Token.kind) = .ok (answer, ctx)) :
    state.parse source =
      .ok ((answer.mapError (locate tokens (Text.Utf8.encode source).size)).map fun _ => (),
        { lexed with parser := ctx }) := by
  obtain ⟨kept, kinds⟩ := kept_of_tokenize lexes
  rw [← kinds] at ran
  have ran' : expressionParser.runOn Atom.describe
      (grammar.runOn .natural (lexed.kinds.size + 1) (.rule .expression)) lexed.parser lexed.kinds =
        .ok (answer, ctx) := ran
  simp only [parse, lexes, ran', Fault.ok_bind, kept]
  cases answer <;> rfl

theorem root_of_tracks {ctx : Context Tag} {refs : List Backref} {tree : MarkedTree Tag}
    (tracks : ctx.Tracks refs [tree] true) :
    ∃ root low, ctx.forestD.head = some root ∧ ctx.forestD.Subtree root low tree ∧
      root < ctx.forestD.size + 1 := by
  obtain ⟨root, head, low, subtree⟩ :=
    tracks.represents.subtree_head (tracks.sound tree List.mem_cons_self)
  obtain ⟨parent, prev, next, found⟩ := subtree.root
  exact ⟨root, low, head, subtree, Nat.lt_succ_of_lt (Forest.lt_size_of_node found)⟩

theorem render_of_parse {phrase : Phrase .sum} {refs : List Backref}
    (parsed : state.parse source = .ok (.ok (), after)) (kept : after.tokens = tokens)
    (tracks : after.parser.Tracks refs [phrase.tree 0] true) :
    state.render source =
      .ok (.ok (String.ofList (phrase.written (leafText tokens (Text.Utf8.encode source)) 0)),
        after) := by
  obtain ⟨root, low, head, subtree, deep⟩ := root_of_tracks tracks
  have written : writeNode after.parser.forestD tokens (Text.Utf8.encode source)
      (after.parser.forestD.size + 1) root =
        .ok (phrase.written (leafText tokens (Text.Utf8.encode source)) 0) :=
    writes_phrase phrase 0 _ root low subtree deep
  simp only [render, parsed, Fault.ok_bind, head, kept, written]
  rfl

/-! ## Derivable tokens -/

def kindsOf (tokens : Array Token) : List TokenKind :=
  tokens.toList.map Token.kind

/-- What a parse of a source has to answer and to build, given the tokens of the source. -/
structure Parses (state : Calculator) (source : String) (tokens : Array Token)
    (answer : Except ParseError Unit) (after : Calculator) : Prop where
  /-- A source is accepted if its tokens are a sum. -/
  accepted : answer = .ok () ↔ kindsOf tokens ∈ Level.sum.language
  built : ∀ phrase : Phrase .sum, phrase.tokens = kindsOf tokens →
    after.parser.forestD.Represents [phrase.tree 0]
  rendered : ∀ phrase : Phrase .sum, phrase.tokens = kindsOf tokens →
    state.render source =
      .ok (.ok (String.ofList (phrase.written (leafText tokens (Text.Utf8.encode source)) 0)), after)
  /-- The grammar fails if the tokens do not even begin with a sum. -/
  unexpected : (∃ range detail, answer = .error (.unexpected range "<expr>" detail)) ↔
    ∀ phrase : Phrase .sum, ¬phrase.tokens <+: kindsOf tokens
  /-- Otherwise the longest sum that they begin with is followed by the tokens left over. -/
  trailing : ∀ phrase : Phrase .sum, phrase.tokens <+: kindsOf tokens →
    phrase.tokens ≠ kindsOf tokens →
    (∀ other : Phrase .sum, other.tokens <+: kindsOf tokens → other.length ≤ phrase.length) →
    ∃ token, tokens[phrase.length]? = some token ∧
      answer = .error (.trailing ⟨token.start, (Text.Utf8.encode source).size⟩)

theorem parses_of_whole {phrase : Phrase .sum} {refs : List Backref}
    (whole : phrase.tokens = kindsOf tokens)
    (unique : ∀ other : Phrase .sum, other.tokens = kindsOf tokens → other = phrase)
    (parsed : state.parse source = .ok (.ok (), after)) (kept : after.tokens = tokens)
    (tracks : after.parser.Tracks refs [phrase.tree 0] true) :
    Parses state source tokens (.ok ()) after where
  accepted := iff_of_true rfl ⟨phrase, whole⟩
  built := by
    intro other whole'
    rw [unique other whole']
    exact tracks.represents
  rendered := by
    intro other whole'
    rw [unique other whole']
    exact render_of_parse parsed kept tracks
  unexpected := by
    constructor
    · rintro ⟨_, _, impossible⟩
      cases impossible
    · intro none_begins
      exact absurd ⟨[], by rw [List.append_nil, whole]⟩ (none_begins phrase)
  trailing := by
    intro other begins short longest
    have longer : phrase.length ≤ other.length := longest phrase (by rw [whole])
    rw [Phrase.length, whole] at longer
    exact absurd (begins.eq_of_length_le longer) short

theorem parses_of_error {error : ParseError}
    (partly : ∀ phrase : Phrase .sum, phrase.tokens ≠ kindsOf tokens)
    (unexpected : (∃ range detail, error = .unexpected range "<expr>" detail) ↔
      ∀ phrase : Phrase .sum, ¬phrase.tokens <+: kindsOf tokens)
    (trailing : ∀ phrase : Phrase .sum, phrase.tokens <+: kindsOf tokens →
      (∀ other : Phrase .sum, other.tokens <+: kindsOf tokens → other.length ≤ phrase.length) →
      ∃ token, tokens[phrase.length]? = some token ∧
        error = .trailing ⟨token.start, (Text.Utf8.encode source).size⟩) :
    Parses state source tokens (.error error) after where
  accepted := by
    constructor
    · intro impossible
      cases impossible
    · rintro ⟨phrase, whole⟩
      exact absurd whole (partly phrase)
  built := fun phrase whole => absurd whole (partly phrase)
  rendered := fun phrase whole => absurd whole (partly phrase)
  unexpected := by
    simp only [Except.error.injEq]
    exact unexpected
  trailing := by
    intro phrase begins _ longest
    simp only [Except.error.injEq]
    exact trailing phrase begins longest

theorem parses_of_longest {phrase : Phrase .sum} {token : Token}
    (begins : phrase.tokens <+: kindsOf tokens)
    (longest : ∀ other : Phrase .sum, other.tokens <+: kindsOf tokens → other.length ≤ phrase.length)
    (next : tokens[phrase.length]? = some token) :
    Parses state source tokens
      (.error (.trailing ⟨token.start, (Text.Utf8.encode source).size⟩)) after := by
  apply parses_of_error
  · intro other whole
    have shorter := longest other (by rw [whole])
    have inside := (Array.getElem?_eq_some_iff.mp next).1
    rw [Phrase.length, whole, kindsOf, List.length_map, Array.length_toList] at shorter
    omega
  · constructor
    · rintro ⟨_, _, impossible⟩
      cases impossible
    · intro none_begins
      exact absurd begins (none_begins phrase)
  · intro other begins' longest'
    have same : other.length = phrase.length :=
      Nat.le_antisymm (longest other begins') (longest' phrase begins)
    rw [same]
    exact ⟨token, next, rfl⟩

theorem parses_of_none (none_begins : ∀ phrase : Phrase .sum, ¬phrase.tokens <+: kindsOf tokens)
    (range : Range) (detail : String) :
    Parses state source tokens (.error (.unexpected range "<expr>" detail)) after := by
  apply parses_of_error
  · intro phrase whole
    exact none_begins phrase (by rw [whole])
  · exact iff_of_true ⟨range, detail, rfl⟩ none_begins
  · intro phrase begins
    exact absurd begins (none_begins phrase)

theorem locate_trailing {token : Token} {start : Nat} (next : tokens[start]? = some token)
    (stop size : Nat) :
    locate tokens size (.trailing ⟨start, stop⟩) = .trailing ⟨token.start, size⟩ := by
  simp only [locate, ParseError.offset, ParseError.range, next]

theorem locate_unexpected (tokens : Array Token) (size : Nat) (kinds : Array TokenKind)
    (offset : Nat) :
    ∃ range detail, locate tokens size (expressionParser.unexpected Atom.describe kinds offset) =
      .unexpected range "<expr>" detail := by
  obtain ⟨range, detail, unexpected⟩ :=
    Session.exists_unexpected expressionParser Atom.describe kinds offset
  rw [unexpected]
  exact ⟨_, detail, rfl⟩

theorem parse_of_taker (reached : Reached state)
    (lexes : state.tokenize source = .ok (.ok tokens, lexed)) :
    (∃ phrase : Phrase .sum, ∃ rest after,
      takeRule (tokens.size + 1) .expression (kindsOf tokens) = some (phrase, rest) ∧
      after.tokens = tokens ∧ after.parser.Tracks [] [phrase.tree 0] true ∧
      state.parse source = .ok (if phrase.length < tokens.size then
        .error (locate tokens (Text.Utf8.encode source).size
          (.trailing ⟨phrase.length, tokens.size⟩)) else .ok (), after)) ∨
    ∃ offset after, takeRule (tokens.size + 1) .expression (kindsOf tokens) = none ∧
      state.parse source = .ok (.error (locate tokens (Text.Utf8.encode source).size
        (expressionParser.unexpected Atom.describe (tokens.map Token.kind) offset)), after) := by
  obtain ⟨refs, trees, tracks⟩ := reached.tracks
  rw [← parser_of_tokenize lexes] at tracks
  have kinds : (tokens.map Token.kind).toList = kindsOf tokens := by simp [kindsOf]
  have size : (tokens.map Token.kind).size = tokens.size := by simp
  have kept : lexed.tokens = tokens := (kept_of_tokenize lexes).1
  have ran := run_expression tracks (tokens.map Token.kind)
  rw [kinds, size] at ran
  rcases ran with ⟨phrase, rest, ctx, taken, tracks', ran⟩ | ⟨offset, ctx, refused, ran⟩
  · have parsed := parse_of_run lexes ran
    refine .inl ⟨phrase, rest, { lexed with parser := ctx }, taken, kept, tracks', ?_⟩
    by_cases more : phrase.length < tokens.size
    · rw [answerOf, size, if_pos more] at parsed
      rw [if_pos more]
      exact parsed
    · rw [answerOf, size, if_neg more] at parsed
      rw [if_neg more]
      exact parsed
  · exact .inr ⟨offset, _, refused, parse_of_run lexes ran⟩

theorem whole_of_begins {phrase : Phrase .sum} (begins : phrase.tokens <+: kindsOf tokens)
    (all : ¬phrase.length < tokens.size) : phrase.tokens = kindsOf tokens := by
  apply begins.eq_of_length_le
  rw [kindsOf, List.length_map, Array.length_toList]
  exact Nat.le_of_not_lt all

/-- A calculator in use parses every source that has tokens, and what it answers and builds is
decided by the sums that the tokens begin with.  The phrases of each level are what the grammar
derives there. -/
theorem parse_derives (reached : Reached state)
    (lexes : state.tokenize source = .ok (.ok tokens, lexed)) :
    Derivable Level.language ∧
      ∃ answer after, state.parse source = .ok (answer, after) ∧
        Parses state source tokens answer after := by
  refine ⟨derivable_language, ?_⟩
  have short : (kindsOf tokens).length < tokens.size + 1 := by simp [kindsOf]
  have recognizes : Recognizes (l := .sum) (tokens.size + 1)
      (takeRule (tokens.size + 1) .expression) := recognizes_takeRule _ _
  rcases parse_of_taker reached lexes with
    ⟨phrase, rest, after, taken, kept, tracks, parsed⟩ | ⟨offset, after, refused, parsed⟩
  · -- The phrase is all there is, or it is the longest of those at the front.
    have begins : phrase.tokens <+: kindsOf tokens := ⟨rest, (recognizes.sound taken).symm⟩
    by_cases more : phrase.length < tokens.size
    · obtain ⟨token, next⟩ : ∃ token, tokens[phrase.length]? = some token :=
        ⟨_, Array.getElem?_eq_getElem more⟩
      rw [if_pos more, locate_trailing next] at parsed
      refine ⟨_, _, parsed, ?_⟩
      exact parses_of_longest begins (fun _ => recognizes.le_of_isPrefix short taken) next
    · rw [if_neg more] at parsed
      refine ⟨_, _, parsed, parses_of_whole (whole_of_begins begins more) ?_ parsed kept tracks⟩
      intro other whole'
      have taken' := recognizes.whole other (by rw [whole']; exact short)
      rw [whole', taken] at taken'
      cases taken'
      rfl
  · obtain ⟨range, detail, located⟩ := locate_unexpected tokens (Text.Utf8.encode source).size
      (tokens.map Token.kind) offset
    rw [located] at parsed
    refine ⟨_, _, parsed, ?_⟩
    exact parses_of_none ((recognizes.eq_none_iff short).mp refused) range detail

theorem parse_of_phrase (reached : Reached state)
    (lexes : state.tokenize source = .ok (.ok tokens, lexed)) (phrase : Phrase .sum)
    (whole : phrase.tokens = kindsOf tokens) :
    ∃ after, state.parse source = .ok (.ok (), after) ∧ after.tokens = tokens ∧
      after.parser.Tracks [] [phrase.tree 0] true := by
  have size : tokens.size = phrase.length := by
    rw [Phrase.length, whole, kindsOf, List.length_map, Array.length_toList]
  have recognizes : Recognizes (l := .sum) (phrase.length + 1)
      (takeRule (phrase.length + 1) .expression) := recognizes_takeRule _ _
  have taken := recognizes.whole phrase (Nat.lt_succ_self _)
  have ran := parse_of_taker reached lexes
  rw [← whole, size, taken] at ran
  rcases ran with ⟨other, rest, after, same, kept, tracks, parsed⟩ | ⟨_, _, impossible, -⟩
  · cases same
    rw [if_neg (Nat.lt_irrefl _)] at parsed
    exact ⟨after, parsed, kept, tracks⟩
  · cases impossible

theorem phrase_of_parse (reached : Reached state)
    (parsed : state.parse source = .ok (.ok (), after)) :
    ∃ tokens lexed, ∃ phrase : Phrase .sum,
      state.tokenize source = .ok (.ok tokens, lexed) ∧ phrase.tokens = kindsOf tokens ∧
      after.tokens = tokens ∧ after.parser.Tracks [] [phrase.tree 0] true := by
  obtain ⟨⟨lexing, lexed⟩, lexes, goesOn⟩ := Fault.bind_eq_ok.mp parsed
  cases lexing with
  | error error => cases goesOn
  | ok tokens =>
      rcases parse_of_taker reached lexes with
        ⟨phrase, rest, after', taken, kept, tracks, parsed'⟩ | ⟨_, _, -, parsed'⟩
      · rw [parsed] at parsed'
        by_cases more : phrase.length < tokens.size
        · rw [if_pos more] at parsed'
          cases parsed'
        · rw [if_neg more] at parsed'
          cases parsed'
          have begins : phrase.tokens <+: kindsOf tokens :=
            ⟨rest, ((recognizes_takeRule _ .expression).sound taken).symm⟩
          exact ⟨tokens, lexed, phrase, lexes, whole_of_begins begins more, kept, tracks⟩
      · rw [parsed] at parsed'
        cases parsed'

def kindsAfter (first source : String) : Option (List TokenKind) :=
  match fresh.parse first with
  | .ok (_, used) =>
      match used.tokenize source with
      | .ok (.ok tokens, _) => some (kindsOf tokens)
      | _ => none
  | .error _ => none

theorem exists_of_kindsAfter {first source : String} {kinds : List TokenKind}
    (found : kindsAfter first source = some kinds) :
    ∃ state tokens lexed, Reached state ∧ state.tokenize source = .ok (.ok tokens, lexed) ∧
      kindsOf tokens = kinds := by
  unfold kindsAfter at found
  split at found
  · next used ran =>
      split at found
      · next tokens lexed lexes =>
          cases found
          exact ⟨used, tokens, lexed, .parse .fresh ran, lexes, rfl⟩
      · cases found
  · cases found

def grouped : Phrase .sum :=
  .subtract
    (.term (.multiply
      (.factor (.negate (.unsigned (.plain (.parens (.add
        (.term (.factor (.unsigned (.plain .name))))
        (.factor (.unsigned (.plain .number)))))))))
      (.unsigned (.plain .number))))
    (.factor (.unsigned (.increment (.plain .number))))

theorem parse_derives_grouped :
    ∃ state tokens lexed, Reached state ∧
      state.tokenize "-(a + 1) * 2 - 3++" = .ok (.ok tokens, lexed) ∧
      kindsOf tokens = grouped.tokens ∧
      Derivable Level.language ∧
      ∃ answer after, state.parse "-(a + 1) * 2 - 3++" = .ok (answer, after) ∧
        Parses state "-(a + 1) * 2 - 3++" tokens answer after := by
  have found : kindsAfter "(1" "-(a + 1) * 2 - 3++" = some grouped.tokens := by decide +kernel
  obtain ⟨state, tokens, lexed, reached, lexes, kinds⟩ := exists_of_kindsAfter found
  exact ⟨state, tokens, lexed, reached, lexes, kinds, parse_derives reached lexes⟩

end PegForest.Calculator
