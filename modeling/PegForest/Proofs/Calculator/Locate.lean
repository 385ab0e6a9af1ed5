import PegForest.Proofs.Calculator.Tokenize
import PegForest.Proofs.SpanContract

/-!
# Where the errors of the calculator point

The parser of expressions counts tokens, and its errors are told in bytes of the source.  An error is
moved to the token at which the grammar ended, or to the end of the source when no token is left.

A source can be cut before any of its tokens.  What stands in front is a source of its own and has
the tokens before the cut and no others: a lexeme stays one when less of the text follows it, so no
token in front depends on what is cut off.  A source that has tokens is all ASCII, so that every
offset is a boundary between two characters.
-/

set_option autoImplicit false

namespace PegForest

open Scanner (Next next_cons next_nil)

def Verdict.place : Verdict → Nat
  | .matched cursor => cursor
  | .failed offset => offset

namespace Calculator

variable {state after lexed : Calculator} {source : String} {start k offset : Nat} {kind : TokenKind}
  {word front back cs rest : List Char} {tokens : List Token}

/-! ## Cutting a source before a token -/

theorem next_of_append {condition : Char → Prop} (next : Next condition (front ++ back)) :
    Next condition front := by
  cases front with
  | nil => exact next_nil _
  | cons c front => exact next_cons.mpr (next_cons.mp next)

theorem Lexeme.of_append (lexeme : Lexeme kind word (front ++ back)) : Lexeme kind word front := by
  cases lexeme with
  | number nonempty digits ended => exact .number nonempty digits (next_of_append ended)
  | name opens continues ended => exact .name opens continues (next_of_append ended)
  | sign spelled longest =>
      refine .sign spelled fun sign listed begins => longest sign listed ?_
      rw [← List.append_assoc]
      exact begins.trans (List.prefix_append _ _)

theorem tiles_nil (start : Nat) : Tiles start [] [] [] := by
  refine .stop fun kind word tail split lexeme => lexeme.nonempty ?_
  exact (List.append_eq_nil_iff.mp split.symm).1

theorem Tiles.cut (tiles : Tiles start cs tokens rest) (counted : k ≤ tokens.length) :
    ∃ front back, cs = front ++ back ∧ Tiles start front (tokens.take k) [] ∧
      (∀ token, tokens[k]? = some token → token.start = start + front.length) ∧
      (k = tokens.length → back = rest) := by
  induction tiles generalizing k with
  | @stop start rest _ =>
      obtain rfl : k = 0 := Nat.le_zero.mp counted
      exact ⟨[], rest, rfl, tiles_nil start, nofun, fun _ => rfl⟩
  | @more start kind word white tail rest tokens lexeme blank visible later ih =>
      cases k with
      | zero =>
          refine ⟨[], _, rfl, tiles_nil start, ?_, nofun⟩
          intro token found
          cases found
          rfl
      | succ k =>
          obtain ⟨front, back, rfl, before, begins, left⟩ := ih (Nat.le_of_succ_le_succ counted)
          -- The blanks behind the word stay with it, so the cut comes right before the next word.
          rw [← List.append_assoc] at lexeme
          refine ⟨word ++ (white ++ front), back, by simp only [List.append_assoc],
            .more lexeme.of_append blank (next_of_append visible) before, ?_, ?_⟩
          · intro token found
            rw [begins token found]
            simp only [List.length_append]
            omega
          · intro last
            exact left (Nat.succ.inj last)

theorem Tiles.ascii (tiles : Tiles start cs tokens rest) (ascii : ∀ c ∈ rest, c.toNat < 128) :
    ∀ c ∈ cs, c.toNat < 128 := by
  induction tiles with
  | stop _ => exact ascii
  | more lexeme blank _ _ ih =>
      simp only [List.forall_mem_append]
      exact ⟨lexeme.ascii, fun c member => isBlank_ascii (blank c member), ih ascii⟩

theorem Tiling.cut (tiling : Tiling source tokens rest) (counted : k ≤ tokens.length) :
    ∃ front back, source.toList = front ++ back ∧
      Tiling (String.ofList front) (tokens.take k) [] ∧
      (∀ token, tokens[k]? = some token → token.start = front.length) ∧
      (k = tokens.length → back = rest) := by
  obtain ⟨white, cs, split, blank, visible, tiles⟩ := tiling
  obtain ⟨front, back, rfl, before, begins, left⟩ := tiles.cut counted
  refine ⟨white ++ front, back, by rw [split, List.append_assoc], ?_, ?_, left⟩
  · exact ⟨white, front, String.toList_ofList, blank, next_of_append visible, before⟩
  · intro token found
    rw [begins token found, List.length_append]

theorem Tiling.ascii (tiling : Tiling source tokens []) : ∀ c ∈ source.toList, c.toNat < 128 := by
  obtain ⟨white, cs, split, blank, -, tiles⟩ := tiling
  rw [split, List.forall_mem_append]
  exact ⟨fun c member => isBlank_ascii (blank c member), tiles.ascii (List.forall_mem_nil _)⟩

/-! ## Bytes of a source -/

theorem size_encode (ascii : ∀ c ∈ source.toList, c.toNat < 128) :
    (Text.Utf8.encode source).size = source.toList.length := by
  rw [← Array.length_toList, toList_encode, encodeAll_ascii ascii, Text.Ascii.bytes, List.length_map]

theorem boundary_of_ascii (ascii : ∀ c ∈ source.toList, c.toNat < 128)
    (inside : offset ≤ (Text.Utf8.encode source).size) : String.Pos.Raw.IsValid source ⟨offset⟩ := by
  rw [size_encode ascii] at inside
  have split : source =
      String.ofList (source.toList.take offset) ++ String.ofList (source.toList.drop offset) := by
    rw [← String.ofList_append, List.take_append_drop, String.ofList_toList]
  refine String.Pos.Raw.isValid_iff_exists_append.mpr ⟨_, _, split, ?_⟩
  have front : (Text.Utf8.encode (String.ofList (source.toList.take offset))).size = offset := by
    rw [size_encode, String.toList_ofList, List.length_take, Nat.min_eq_left inside]
    rw [String.toList_ofList]
    exact fun c member => ascii c (List.mem_of_mem_take member)
  exact congrArg String.Pos.Raw.mk front.symm

def tokenRange (tokens : Array Token) (size k : Nat) : Range :=
  match tokens[k]? with
  | some token => ⟨token.start, token.stop⟩
  | none => ⟨size, size⟩

/-- The bytes before a token are a source that has the tokens before it. -/
theorem Tiling.before {tokens : Array Token} (tiling : Tiling source tokens.toList [])
    (counted : k ≤ tokens.size) :
    ∃ front : String, Tiling front (tokens.toList.take k) [] ∧
      Text.Utf8.encode front = (Text.Utf8.encode source).extract 0
        (tokenRange tokens (Text.Utf8.encode source).size k).start := by
  obtain ⟨front, back, split, tiling', begins, left⟩ := tiling.cut counted
  have ascii := tiling.ascii
  rw [split, List.forall_mem_append] at ascii
  have place := before_text source
  rw [split] at place
  have place' := place.drop ascii.1
  have start : (tokenRange tokens (Text.Utf8.encode source).size k).start = 0 + front.length := by
    rw [tokenRange]
    split
    · next token found =>
        rw [← Array.getElem?_toList] at found
        rw [Nat.zero_add]
        exact begins token found
    · next none_left =>
        have last := Nat.le_antisymm counted (Array.getElem?_eq_none_iff.mp none_left)
        exact (place'.nil_iff.mp (left last)).symm
  refine ⟨String.ofList front, tiling', ?_⟩
  rw [← Array.toList_inj, toList_encode, String.toList_ofList, start]
  exact (place.extract place').2.symm

theorem Tiling.tokenRange_inside {tokens : Array Token} (tiling : Tiling source tokens.toList [])
    (k : Nat) :
    (tokenRange tokens (Text.Utf8.encode source).size k).start ≤
        (tokenRange tokens (Text.Utf8.encode source).size k).stop ∧
      (tokenRange tokens (Text.Utf8.encode source).size k).stop ≤
        (Text.Utf8.encode source).size := by
  rw [tokenRange]
  split
  · next token found =>
      have member : token ∈ tokens.toList := Array.mem_toList_iff.mpr (Array.mem_of_getElem? found)
      obtain ⟨next, behind, tiled, -⟩ := tiling.tiled
      obtain ⟨-, positive, upper⟩ := tiled.inside token member
      exact ⟨Nat.le_of_lt positive, upper.trans (Nat.le.intro behind.size.symm)⟩
  · exact ⟨Nat.le_refl _, Nat.le_refl _⟩

/-! ## Errors of the parser -/

variable {tokens : Array Token} {verdict : Verdict}

/-- What an error tells when the grammar of expressions has ended with a verdict, in bytes of the
source. -/
structure PointsAt (source : String) (tokens : Array Token) (verdict : Verdict)
    (error : ParseError) : Prop where
  counted : verdict.place ≤ tokens.size
  atToken : ∀ token, tokens[verdict.place]? = some token → error.offset = token.start
  atEnd : verdict.place = tokens.size → error.offset = (Text.Utf8.encode source).size
  /-- A failure covers the token at which the grammar failed. -/
  failed : ∀ k, verdict = .failed k → ∃ range detail, error = .unexpected range "<expr>" detail ∧
    (∀ token, tokens[k]? = some token → range = ⟨token.start, token.stop⟩) ∧
    (k = tokens.size →
      range = ⟨(Text.Utf8.encode source).size, (Text.Utf8.encode source).size⟩)
  /-- What a match leaves over goes on to the end of the source. -/
  matched : ∀ k, verdict = .matched k →
    error = .trailing ⟨error.offset, (Text.Utf8.encode source).size⟩
  ordered : error.range.start ≤ error.range.stop
  inside : error.range.stop ≤ (Text.Utf8.encode source).size
  boundaries : String.Pos.Raw.IsValid source ⟨error.range.start⟩ ∧
    String.Pos.Raw.IsValid source ⟨error.range.stop⟩
  /-- The source before the error has the tokens before the place of the verdict. -/
  before : ∃ front : String,
    Text.Utf8.encode front = (Text.Utf8.encode source).extract 0 error.offset ∧
    ∀ other, Reached other → ∃ after,
      other.tokenize front = .ok (.ok (tokens.extract 0 verdict.place), after)

theorem tokenRange_of_token {size : Nat} {token : Token} (found : tokens[k]? = some token) :
    tokenRange tokens size k = ⟨token.start, token.stop⟩ := by
  rw [tokenRange, found]

theorem tokenRange_size (tokens : Array Token) (size : Nat) :
    tokenRange tokens size tokens.size = ⟨size, size⟩ := by
  rw [tokenRange, Array.getElem?_size]

theorem tokenize_of_whole (reached : Reached state) {tokens : List Token}
    (tiling : Tiling source tokens []) :
    ∃ after, state.tokenize source = .ok (.ok tokens.toArray, after) := by
  obtain ⟨refs, trees, tracks⟩ := reached.tracks_lexer
  obtain ⟨next, after, -, ran⟩ := tokenize_of_tiling tracks tiling
  rw [if_pos rfl] at ran
  exact ⟨after, ran⟩

/-- An error that begins where a token does and ends with the token or with the source. -/
theorem pointsAt_of_range {error : ParseError} (tiling : Tiling source tokens.toList [])
    (counted : verdict.place ≤ tokens.size)
    (start : error.range.start =
      (tokenRange tokens (Text.Utf8.encode source).size verdict.place).start)
    (stop : error.range.stop =
        (tokenRange tokens (Text.Utf8.encode source).size verdict.place).stop ∨
      error.range.stop = (Text.Utf8.encode source).size)
    (failed : ∀ k, verdict = .failed k → ∃ detail,
      error = .unexpected (tokenRange tokens (Text.Utf8.encode source).size k) "<expr>" detail)
    (matched : ∀ k, verdict = .matched k →
      error = .trailing ⟨error.offset, (Text.Utf8.encode source).size⟩) :
    PointsAt source tokens verdict error := by
  obtain ⟨ordered, inside⟩ := tiling.tokenRange_inside verdict.place
  have upper : error.range.stop ≤ (Text.Utf8.encode source).size := by
    rcases stop with same | same <;> omega
  have forward : error.range.start ≤ error.range.stop := by
    rcases stop with same | same <;> omega
  exact
  { counted
    atToken := by
      intro token found
      rw [ParseError.offset, start, tokenRange_of_token found]
    atEnd := by
      intro last
      rw [ParseError.offset, start, last, tokenRange_size]
    failed := by
      intro k same
      obtain ⟨detail, told⟩ := failed k same
      refine ⟨_, detail, told, fun token found => tokenRange_of_token found, ?_⟩
      intro last
      rw [last, tokenRange_size]
    matched
    ordered := forward
    inside := upper
    boundaries :=
      ⟨boundary_of_ascii tiling.ascii (forward.trans upper), boundary_of_ascii tiling.ascii upper⟩
    before := by
      -- The source up to the error is tiled by the tokens before it, and so it lexes to them.
      obtain ⟨front, tiling', cut⟩ := tiling.before counted
      refine ⟨front, by rw [cut, ParseError.offset, start], fun other reached => ?_⟩
      obtain ⟨after, ran⟩ := tokenize_of_whole reached tiling'
      have taken : (tokens.toList.take verdict.place).toArray = tokens.extract 0 verdict.place := by
        rw [← Array.toList_inj, Array.toList_extract, List.extract_eq_take_drop]
        rfl
      exact ⟨after, by rw [ran, taken]⟩ }

theorem pointsAt_failed (tiling : Tiling source tokens.toList []) (counted : k ≤ tokens.size)
    (kinds : Array TokenKind) :
    PointsAt source tokens (.failed k) (locate tokens (Text.Utf8.encode source).size
      (expressionParser.unexpected Atom.describe kinds k)) := by
  have points (detail : String) : PointsAt source tokens (.failed k)
      (.unexpected (tokenRange tokens (Text.Utf8.encode source).size k) "<expr>" detail) := by
    refine pointsAt_of_range tiling counted rfl (.inl rfl) ?_ nofun
    intro other same
    cases same
    exact ⟨detail, rfl⟩
  unfold Parser.unexpected
  split
  · exact points _
  · exact points _

theorem pointsAt_matched (tiling : Tiling source tokens.toList []) (counted : k ≤ tokens.size)
    (stop : Nat) :
    PointsAt source tokens (.matched k)
      (locate tokens (Text.Utf8.encode source).size (.trailing ⟨k, stop⟩)) :=
  pointsAt_of_range tiling counted rfl (.inr rfl) nofun fun _ _ => rfl

theorem exists_verdict {kinds : Array TokenKind} {ctx ctx' : Context Tag}
    {answer : Except ParseError Nat}
    (ran : expressionParser.runOn Atom.describe (expressionTask kinds).onSpan ctx kinds =
      .ok (answer, ctx')) :
    ∃ verdict after,
      (expressionTask kinds).action ⟨kinds, kinds.size⟩ ctx.reset 0 = .ok (verdict, after) ∧
      verdict.place ≤ kinds.size ∧
      answer = (expressionParser.conclude Atom.describe kinds after verdict).1 := by
  rw [Session.Task.runOn_eq] at ran
  obtain ⟨⟨verdict, after⟩, acted, concluded⟩ := Fault.bind_eq_ok.mp ran
  refine ⟨verdict, after, acted, ?_, (congrArg Prod.fst (Except.ok.inj concluded)).symm⟩
  let attempt : Session.Match TokenKind Tag :=
    { expressionTask kinds with source := kinds, cursor := 0, limit := kinds.size }
  have returned : attempt.run ctx.reset = .ok (verdict.toSpan kinds kinds.size, after) := by
    rw [attempt.run_of_inside ⟨Nat.zero_le _, Nat.le_refl _⟩]
    exact Fault.bind_eq_ok.mpr ⟨_, acted, rfl⟩
  have permits := Session.Match.permits_of_run returned
  cases verdict with
  | matched cursor => exact permits.2.2.2
  | failed offset => exact permits.2.1

theorem parseThen_of_error {β γ : Type} {read : Calculator → NodeId → Except Fault β}
    {finish : β → γ} {nothing : γ} {error : ParseError}
    (parsed : state.parse source = .ok (.error error, after)) :
    state.parseThen source read finish nothing = .ok (.error error, after) := by
  simp only [parseThen, parsed, Fault.ok_bind]
  rfl

theorem points_of_conclude {kinds : Array TokenKind} {ctx : Context Tag}
    {answer : Except ParseError Unit} (tiling : Tiling source tokens.toList [])
    (size : kinds.size = tokens.size) (counted : verdict.place ≤ tokens.size)
    (concluded : answer = ((expressionParser.conclude Atom.describe kinds ctx verdict).1.mapError
      (locate tokens (Text.Utf8.encode source).size)).map fun _ => ()) :
    (answer = .ok () ↔ verdict = .matched tokens.size) ∧
      ∀ error, answer = .error error → PointsAt source tokens verdict error := by
  cases verdict with
  | failed k =>
      rw [concluded]
      refine ⟨iff_of_false nofun nofun, ?_⟩
      intro error told
      cases told
      exact pointsAt_failed tiling counted kinds
  | matched k =>
      have full : expressionParser.full = true := rfl
      rw [Session.conclude_full full, size] at concluded
      by_cases more : k < tokens.size
      · rw [if_pos more] at concluded
        rw [concluded]
        refine ⟨iff_of_false nofun ?_, ?_⟩
        · intro whole
          cases whole
          exact Nat.lt_irrefl _ more
        · intro error told
          cases told
          exact pointsAt_matched tiling counted tokens.size
      · rw [if_neg more] at concluded
        obtain rfl : k = tokens.size := Nat.le_antisymm counted (Nat.le_of_not_lt more)
        rw [concluded]
        exact ⟨iff_of_true rfl rfl, nofun⟩

/-- Where the tokens of a source are not a whole expression, the calculator refuses the source with
an error that points at the token at which the grammar failed or stopped. -/
theorem errors_point_at_tokens (reached : Reached state)
    (lexes : state.tokenize source = .ok (.ok tokens, lexed)) (bindings : List (String × Int)) :
    ∃ verdict ctx answer after,
      (expressionTask (tokens.map Token.kind)).action ⟨tokens.map Token.kind, tokens.size⟩
        state.parser.reset 0 = .ok (verdict, ctx) ∧
      state.parse source = .ok (answer, after) ∧
      (answer = .ok () ↔ verdict = .matched tokens.size) ∧
      ∀ error, answer = .error error →
        state.render source = .ok (.error error, after) ∧
        state.evaluate source bindings = .ok (.error error, after) ∧
        PointsAt source tokens verdict error := by
  obtain ⟨refs, trees, tracks⟩ := reached.tracks
  obtain ⟨refs', trees', lexer⟩ := reached.tracks_lexer
  have size : (tokens.map Token.kind).size = tokens.size := Array.size_map
  rw [← parser_of_tokenize lexes] at tracks ⊢
  -- The match always ends, so that there is a verdict to tell.
  obtain ⟨answer, parser, ran⟩ : ∃ answer parser, expressionParser.runOn Atom.describe
      (expressionTask (tokens.map Token.kind)).onSpan lexed.parser (tokens.map Token.kind) =
        .ok (answer, parser) := by
    rcases run_expression tracks (tokens.map Token.kind) with
      ⟨_, _, parser, -, -, ran⟩ | ⟨_, parser, -, ran⟩
    · exact ⟨_, parser, ran⟩
    · exact ⟨_, parser, ran⟩
  have parsed := parse_of_run lexes ran
  obtain ⟨verdict, ctx, acted, counted, rfl⟩ := exists_verdict ran
  rw [size] at acted counted
  obtain ⟨accepted, points⟩ :=
    points_of_conclude (tiling_of_tokenize lexer lexes) size counted rfl
  refine ⟨verdict, ctx, _, _, acted, parsed, accepted, ?_⟩
  intro error refused
  rw [refused] at parsed
  rw [render_eq, evaluate_eq]
  exact ⟨parseThen_of_error parsed, parseThen_of_error parsed, points error refused⟩

/-- After another source was refused, `(1` with a blank behind it is refused behind the blank. -/
theorem errors_point_at_tokens_blank_behind :
    ∃ state lexed after, Reached state ∧
      state.tokenize "(1 " = .ok (.ok #[⟨.leftParen, 0, 1⟩, ⟨.number, 1, 2⟩], lexed) ∧
      state.evaluate "(1 " [] =
        .ok (.error (.unexpected ⟨3, 3⟩ "<expr>" "unexpected end of input"), after) ∧
      ∃ verdict, PointsAt "(1 " #[⟨.leftParen, 0, 1⟩, ⟨.number, 1, 2⟩] verdict
        (.unexpected ⟨3, 3⟩ "<expr>" "unexpected end of input") := by
  have found : (fresh.parse "1 + * 2" >>= fun used => used.2.tokenize "(1 " >>= fun lexing =>
      used.2.parse "(1 " >>= fun parsing => .ok (lexing.1, parsing.1)) =
      .ok (.ok #[⟨.leftParen, 0, 1⟩, ⟨.number, 1, 2⟩],
        .error (.unexpected ⟨3, 3⟩ "<expr>" "unexpected end of input")) := by
    decide +kernel
  obtain ⟨⟨refused, state⟩, first, found⟩ := Fault.bind_eq_ok.mp found
  obtain ⟨⟨lexing, lexed⟩, lexes, found⟩ := Fault.bind_eq_ok.mp found
  obtain ⟨⟨parsing, parsed⟩, parses, found⟩ := Fault.bind_eq_ok.mp found
  cases found
  have reached : Reached state := .parse .fresh first
  obtain ⟨verdict, ctx, answer, after, -, ran, -, told⟩ :=
    errors_point_at_tokens reached lexes []
  rw [parses] at ran
  cases ran
  obtain ⟨-, evaluated, points⟩ := told _ rfl
  exact ⟨state, lexed, parsed, reached, lexes, evaluated, verdict, points⟩

end Calculator

end PegForest
