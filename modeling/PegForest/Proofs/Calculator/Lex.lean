import PegForest.Language.Calculator.Basic
import PegForest.Proofs.Forest.Walk
import PegForest.Proofs.Reading.Grow
import PegForest.Proofs.Reading.Search
import PegForest.Proofs.Session

/-!
# The tokens of a source

A source is a tiling: blanks, and then lexemes with blanks between them.  A number or a name goes on
as long as it can, and a sign is the longest one that begins where it stands.  The lexer takes a
lexeme wherever one begins and refuses to go on elsewhere, so what it leaves is decided by the
source: a leaf for each lexeme over the bytes of its characters.
-/

set_option autoImplicit false

namespace PegForest

namespace Calculator

open Text.Ascii
open Json.Syntax (among among_iff within within_iff)
open Reading (Barren Refuses barren_one scans_one spells_among spells_exactly spells_within)
open Scanner (Next next_cons next_nil split_while)

/-! ## Lexemes -/

def isBlank : Char → Bool :=
  among [' ', '\t', '\r', '\n']

def isNumeric : Char → Bool :=
  within '0' '9'

def opensName (c : Char) : Bool :=
  within 'a' 'z' c || (within 'A' 'Z' c || among ['_'] c)

def continuesName (c : Char) : Bool :=
  within 'a' 'z' c || (within 'A' 'Z' c || (within '0' '9' c || among ['_'] c))

def signs : List (TokenKind × List Char) :=
  [(.increment, ['+', '+']), (.decrement, ['-', '-']), (.plus, ['+']), (.minus, ['-']),
    (.star, ['*']), (.slash, ['/']), (.leftParen, ['(']), (.rightParen, [')'])]

/-- The word is a token of the kind when the rest follows it. -/
inductive Lexeme : TokenKind → (word rest : List Char) → Prop where
  | number {word rest : List Char} (nonempty : word ≠ []) (digits : ∀ c ∈ word, isNumeric c = true)
      (ended : Next (fun c => isNumeric c = false) rest) : Lexeme .number word rest
  | name {c : Char} {word rest : List Char} (opens : opensName c = true)
      (continues : ∀ d ∈ word, continuesName d = true)
      (ended : Next (fun d => continuesName d = false) rest) : Lexeme .ident (c :: word) rest
  | sign {kind : TokenKind} {word rest : List Char} (spelled : (kind, word) ∈ signs)
      (longest : ∀ sign ∈ signs, sign.2 <+: word ++ rest → sign.2.length ≤ word.length) :
      Lexeme kind word rest

/-- The characters from a byte offset on begin with lexemes, blanks after each, up to a rest at which
no lexeme begins. -/
inductive Tiles : (start : Nat) → List Char → List Token → (rest : List Char) → Prop where
  | stop {start : Nat} {rest : List Char}
      (none_begins : ∀ kind word tail, rest = word ++ tail → ¬Lexeme kind word tail) :
      Tiles start rest [] rest
  | more {start : Nat} {kind : TokenKind} {word white tail rest : List Char} {tokens : List Token}
      (lexeme : Lexeme kind word (white ++ tail)) (blank : ∀ c ∈ white, isBlank c = true)
      (visible : Next (fun c => isBlank c = false) tail)
      (later : Tiles (start + word.length + white.length) tail tokens rest) :
      Tiles start (word ++ (white ++ tail)) (⟨kind, start, start + word.length⟩ :: tokens) rest

variable {input : Array UInt8} {cursor : Nat} {refs : List Backref} {kind : TokenKind}
  {cs word rest : List Char}

theorem within_ascii {low high c : Char} (ascii : high.toNat < 128)
    (inside : within low high c = true) : c.toNat < 128 :=
  Nat.lt_of_le_of_lt (within_iff.mp inside).2 ascii

theorem isNumeric_ascii {c : Char} (digit : isNumeric c = true) : c.toNat < 128 :=
  within_ascii (by decide) digit

theorem continuesName_of_opens {c : Char} (opens : opensName c = true) : continuesName c = true := by
  unfold opensName at opens
  unfold continuesName
  simp only [Bool.or_eq_true] at opens ⊢
  tauto

theorem continuesName_ascii {c : Char} (continues : continuesName c = true) : c.toNat < 128 := by
  unfold continuesName at continues
  simp only [Bool.or_eq_true] at continues
  rcases continues with lower | upper | digit | underscore
  · exact within_ascii (by decide) lower
  · exact within_ascii (by decide) upper
  · exact within_ascii (by decide) digit
  · rw [among_iff, List.mem_singleton] at underscore
    rw [underscore]
    decide

theorem isBlank_ascii {c : Char} (blank : isBlank c = true) : c.toNat < 128 := by
  have ascii : ∀ d ∈ [' ', '\t', '\r', '\n'], d.toNat < 128 := by simp
  exact ascii c (among_iff.mp blank)

theorem signs_ascii : ∀ sign ∈ signs, ∀ c ∈ sign.2, c.toNat < 128 := by simp [signs]

theorem Lexeme.ascii (lexeme : Lexeme kind word rest) : ∀ c ∈ word, c.toNat < 128 := by
  cases lexeme with
  | number _ digits _ => exact fun c member => isNumeric_ascii (digits c member)
  | name opens continues _ =>
      rw [List.forall_mem_cons]
      exact ⟨continuesName_ascii (continuesName_of_opens opens),
        fun d member => continuesName_ascii (continues d member)⟩
  | sign spelled _ => exact signs_ascii _ spelled

theorem signs_nonempty : ∀ sign ∈ signs, sign.2 ≠ [] := by decide

theorem Lexeme.nonempty (lexeme : Lexeme kind word rest) : word ≠ [] := by
  cases lexeme with
  | number nonempty _ _ => exact nonempty
  | name _ _ _ => exact List.cons_ne_nil _ _
  | sign spelled _ => exact signs_nonempty _ spelled

/-! ## Where a lexeme begins -/

theorem not_numeric_of_opens {c : Char} (opens : opensName c = true) : isNumeric c = false := by
  rw [← Bool.not_eq_true, isNumeric, within_iff]
  simp only [opensName, Bool.or_eq_true, within_iff, among_iff, List.mem_singleton] at opens
  rcases opens with lower | upper | rfl
  · exact fun digit => absurd (lower.1.trans digit.2) (by decide)
  · exact fun digit => absurd (upper.1.trans digit.2) (by decide)
  · decide

theorem signs_sorted : signs.Pairwise fun sign later =>
    later.2.length ≤ sign.2.length ∧ later.2 ≠ sign.2 := by
  decide

theorem signs_apart : ∀ sign ∈ signs, ∀ c ∈ sign.2.head?,
    isNumeric c = false ∧ opensName c = false := by
  simp [signs, isNumeric, opensName, within, among]

theorem sign_apart (spelled : (kind, word) ∈ signs) (rest : List Char) :
    Next (fun c => isNumeric c = false) (word ++ rest) ∧
      Next (fun c => opensName c = false) (word ++ rest) := by
  have nonempty : word ≠ [] := signs_nonempty _ spelled
  obtain ⟨c, tail, rfl⟩ := List.exists_cons_of_ne_nil nonempty
  obtain ⟨no_digit, no_name⟩ := signs_apart _ spelled c rfl
  exact ⟨next_cons.mpr no_digit, next_cons.mpr no_name⟩

theorem not_prefix_of_earlier {before after : List (TokenKind × List Char)}
    (split : signs = before ++ (kind, word) :: after)
    (longest : ∀ sign ∈ signs, sign.2 <+: word ++ rest → sign.2.length ≤ word.length)
    {sign : TokenKind × List Char} (member : sign ∈ before) : ¬sign.2 <+: word ++ rest := by
  intro begins
  have sorted := signs_sorted
  have listed : sign ∈ signs := by
    rw [split]
    exact List.mem_append_left _ member
  rw [split, List.pairwise_append] at sorted
  obtain ⟨longer, other⟩ := sorted.2.2 sign member (kind, word) List.mem_cons_self
  have inside : sign.2 <+: word :=
    List.prefix_of_prefix_length_le begins (List.prefix_append word rest) (longest sign listed begins)
  exact other (inside.eq_of_length_le longer).symm

/-- Of the signs that a text begins with, the first one listed is the longest. -/
theorem exists_sign (begins : ∃ sign ∈ signs, sign.2 <+: cs) :
    ∃ kind word rest, cs = word ++ rest ∧ Lexeme kind word rest := by
  obtain ⟨sign, listed, here⟩ := begins
  have some_sign : (signs.find? fun sign => decide (sign.2 <+: cs)).isSome = true :=
    List.find?_isSome.mpr ⟨sign, listed, decide_eq_true here⟩
  obtain ⟨⟨kind, word⟩, found⟩ := Option.isSome_iff_exists.mp some_sign
  obtain ⟨spells, before, after, split, earlier⟩ := List.find?_eq_some_iff_append.mp found
  obtain ⟨rest, rfl⟩ := of_decide_eq_true spells
  have sorted := signs_sorted
  rw [split, List.pairwise_append, List.pairwise_cons] at sorted
  refine ⟨kind, word, rest, rfl, .sign (by rw [split]; simp) ?_⟩
  intro other member begins
  rw [split, List.mem_append, List.mem_cons] at member
  rcases member with first | rfl | last
  · simpa [begins] using earlier other first
  · exact Nat.le_refl _
  · exact (sorted.2.1.1 other last).1

theorem no_lexeme_iff :
    (∀ kind word rest, cs = word ++ rest → ¬Lexeme kind word rest) ↔
      Next (fun c => isNumeric c = false) cs ∧ Next (fun c => opensName c = false) cs ∧
        ∀ sign ∈ signs, ¬sign.2 <+: cs := by
  constructor
  · intro none_begins
    refine ⟨?_, ?_, ?_⟩
    · obtain ⟨word, rest, rfl, digits, ended⟩ := split_while isNumeric cs
      by_cases empty : word = []
      · rwa [empty, List.nil_append]
      · exact absurd (.number empty digits ended) (none_begins _ word rest rfl)
    · cases cs with
      | nil => exact next_nil _
      | cons c tail =>
          rw [next_cons, ← Bool.not_eq_true]
          intro opens
          obtain ⟨word, rest, rfl, continues, ended⟩ := split_while continuesName tail
          exact none_begins _ (c :: word) rest rfl (.name opens continues ended)
    · intro sign listed begins
      obtain ⟨kind, word, rest, split, lexeme⟩ := exists_sign ⟨sign, listed, begins⟩
      exact none_begins kind word rest split lexeme
  · rintro ⟨no_number, no_name, no_sign⟩ kind word rest rfl lexeme
    cases lexeme with
    | number nonempty digits _ =>
        obtain ⟨c, word, rfl⟩ := List.exists_cons_of_ne_nil nonempty
        have refused := next_cons.mp no_number
        rw [digits c List.mem_cons_self] at refused
        cases refused
    | name opens _ _ =>
        have refused := next_cons.mp no_name
        rw [opens] at refused
        cases refused
    | sign spelled _ => exact no_sign _ spelled (List.prefix_append _ _)

/-! ## Readings -/

def oneOf (input : Array UInt8) (kind : AtomClass UInt8) : Reading TokenKind :=
  .one ⟨input, input.size⟩ (kind.test .natural)

def blanksAt (input : Array UInt8) : Reading TokenKind :=
  (oneOf input (.among (bytes [' ', '\t', '\r', '\n']))).repeated input

def digitAt (input : Array UInt8) : Reading TokenKind :=
  oneOf input (.within (byte '0') (byte '9'))

def numberAt (input : Array UInt8) : Reading TokenKind :=
  ((digitAt input).thenIfMoved ((digitAt input).repeated input)).node (some .number) false

def nameStartAt (input : Array UInt8) : Reading TokenKind :=
  .choice [oneOf input (.within (byte 'a') (byte 'z')), oneOf input (.within (byte 'A') (byte 'Z')),
    oneOf input (.exactly (byte '_'))]

def nameRestAt (input : Array UInt8) : Reading TokenKind :=
  .choice [oneOf input (.within (byte 'a') (byte 'z')), oneOf input (.within (byte 'A') (byte 'Z')),
    digitAt input, oneOf input (.exactly (byte '_'))]

def nameAt (input : Array UInt8) : Reading TokenKind :=
  ((nameStartAt input).andThen ((nameRestAt input).repeated input)).node (some .ident) false

def signAt (input : Array UInt8) (sign : TokenKind × List Char) : Reading TokenKind :=
  (Reading.literal .natural ⟨input, input.size⟩ (bytes sign.2)).node (some sign.1) false

def tokenAt (input : Array UInt8) : Reading TokenKind :=
  .choice (numberAt input :: nameAt input :: signs.map (signAt input))

def sourceAt (input : Array UInt8) : Reading TokenKind :=
  (blanksAt input).andThen ((((tokenAt input).andThen (blanksAt input)).repeated input).andThen
    (.endOfInput ⟨input, input.size⟩))

theorem reading_token (call : Empty → Reading TokenKind) :
    (token : Matcher UInt8 TokenKind Empty).reading .natural ⟨input, input.size⟩ call =
      tokenAt input := by
  simp only [tokenAt, nameAt, nameStartAt, nameRestAt, signs, List.map_cons, List.map_nil, signAt,
    bytes, Reading.literal_singleton]
  rw [← Reading.andThen_succeed (Reading.repeated input _)]
  rfl

theorem reading_tokenRun :
    tokenGrammar.reading .natural 0 ⟨input, input.size⟩ tokenRun = sourceAt input := by
  simp only [Grammar.reading, tokenRun, Matcher.reading, Matcher.readings, Reading.sequence,
    Reading.andThen_succeed, reading_token]
  rfl

/-! ## Lexemes are taken -/

variable {bound : Nat}

theorem spells_numeric : Reading.Spells (.within (byte '0') (byte '9')) isNumeric :=
  spells_within (by decide) (by decide)

theorem scans_nameStart : (nameStartAt input).Scans input bound (Scanner.one opensName) := by
  have joined : Scanner.choice [.one (within 'a' 'z'), .one (within 'A' 'Z'), .one (among ['_'])] =
      Scanner.one opensName :=
    Scanner.choice_one_cons (Scanner.choice_one_cons (Scanner.choice_one _))
  rw [← joined]
  exact .choice (.cons (scans_one (spells_within (by decide) (by decide)))
    (.cons (scans_one (spells_within (by decide) (by decide)))
      (.cons (scans_one (spells_exactly (by decide))) .nil)))

theorem scans_nameRest : (nameRestAt input).Scans input bound (Scanner.one continuesName) := by
  have joined : Scanner.choice [.one (within 'a' 'z'), .one (within 'A' 'Z'),
      .one (within '0' '9'), .one (among ['_'])] = Scanner.one continuesName :=
    Scanner.choice_one_cons (Scanner.choice_one_cons (Scanner.choice_one_cons
      (Scanner.choice_one _)))
  rw [← joined]
  exact .choice (.cons (scans_one (spells_within (by decide) (by decide)))
    (.cons (scans_one (spells_within (by decide) (by decide)))
      (.cons (scans_one spells_numeric) (.cons (scans_one (spells_exactly (by decide))) .nil))))

theorem scans_name :
    ((nameStartAt input).andThen ((nameRestAt input).repeated input)).Scans input bound
      ((Scanner.one opensName).andThen (Scanner.one continuesName).star) :=
  scans_nameStart.andThen scans_nameRest.repeated

theorem barren_name :
    ((nameStartAt input).andThen ((nameRestAt input).repeated input)).Barren := by
  have start : (nameStartAt input).Barren := by
    apply Barren.choice
    simp only [List.forall_mem_cons]
    exact ⟨barren_one _ _, barren_one _ _, barren_one _ _, List.forall_mem_nil _⟩
  have others : (nameRestAt input).Barren := by
    apply Barren.choice
    simp only [List.forall_mem_cons]
    exact ⟨barren_one _ _, barren_one _ _, barren_one _ _, barren_one _ _, List.forall_mem_nil _⟩
  exact start.andThen others.repeated

theorem number_refuses (other : Next (fun c => isNumeric c = false) cs) :
    (numberAt input).Refuses input cs := by
  intro refs cursor place
  exact ⟨cursor, Reading.node_of_failed (Reading.plus_refused spells_numeric place other _ refs) _ _⟩

theorem name_refuses (other : Next (fun c => opensName c = false) cs) :
    (nameAt input).Refuses input cs := by
  intro refs cursor place
  have refused : (Scanner.one opensName).andThen (Scanner.one continuesName).star cs = none := by
    rw [Scanner.andThen, Scanner.one_refused other, Option.bind_none]
  obtain ⟨offset, failed⟩ :=
    Refuses.of_scans scans_name (Nat.lt_succ_self _) refused refs cursor place
  exact ⟨offset, Reading.node_of_failed failed _ _⟩

theorem sign_refuses {sign : TokenKind × List Char} (listed : sign ∈ signs)
    (absent : ¬sign.2 <+: cs) :
    (signAt input sign).Refuses input cs := by
  intro refs cursor place
  obtain ⟨offset, failed⟩ :=
    Reading.literal_refused (τ := TokenKind) (signs_ascii sign listed) place absent refs
  exact ⟨offset, Reading.node_of_failed failed _ _⟩

def leaf (token : Token) : MarkedTree TokenKind :=
  .node (some token.kind) token.start token.stop false []

theorem number_taken (nonempty : word ≠ []) (digits : ∀ c ∈ word, isNumeric c = true)
    (ended : Next (fun c => isNumeric c = false) rest)
    (place : Before input cursor (word ++ rest)) (refs : List Backref) :
    numberAt input refs cursor =
      .ok (.matched (cursor + word.length) [leaf ⟨.number, cursor, cursor + word.length⟩] []) :=
  Reading.node_of_matched (Reading.plus_taken spells_numeric place nonempty digits ended refs) _ _

theorem name_taken {c : Char} (opens : opensName c = true)
    (continues : ∀ d ∈ word, continuesName d = true)
    (ended : Next (fun d => continuesName d = false) rest)
    (place : Before input cursor (c :: word ++ rest)) (refs : List Backref) :
    ∃ stored, nameAt input refs cursor =
      .ok (.matched (cursor + (c :: word).length)
        [leaf ⟨.ident, cursor, cursor + (c :: word).length⟩] stored) := by
  have taken : (Scanner.one opensName).andThen (Scanner.one continuesName).star (c :: word ++ rest) =
      some rest := by
    have first : Scanner.one opensName (c :: (word ++ rest)) = some (word ++ rest) := if_pos opens
    rw [List.cons_append, Scanner.andThen, first, Option.bind_some, Scanner.star_one continues ended]
  have ascii := (Lexeme.name opens continues ended).ascii
  obtain ⟨stored, found⟩ :=
    barren_name.taken scans_name place (Nat.lt_succ_self _) taken ascii refs
  exact ⟨stored, Reading.node_of_matched found _ _⟩

theorem sign_taken {sign : TokenKind × List Char} (listed : sign ∈ signs)
    (place : Before input cursor (sign.2 ++ rest)) (refs : List Backref) :
    signAt input sign refs cursor =
      .ok (.matched (cursor + sign.2.length)
        [leaf ⟨sign.1, cursor, cursor + sign.2.length⟩] []) :=
  Reading.node_of_matched (Reading.literal_taken (signs_ascii sign listed) place refs) _ _

theorem token_taken (lexeme : Lexeme kind word rest) (place : Before input cursor (word ++ rest))
    (refs : List Backref) :
    ∃ stored, tokenAt input refs cursor =
      .ok (.matched (cursor + word.length) [leaf ⟨kind, cursor, cursor + word.length⟩] stored) := by
  cases lexeme with
  | number nonempty digits ended =>
      exact ⟨[], Reading.firstOf_of_matched (number_taken nonempty digits ended place refs) cursor⟩
  | @name c word _ opens continues ended =>
      obtain ⟨stored, found⟩ := name_taken opens continues ended place refs
      obtain ⟨offset, failed⟩ :=
        number_refuses (next_cons.mpr (not_numeric_of_opens opens)) refs cursor place
      refine ⟨stored, ?_⟩
      rw [tokenAt, Reading.choice, Reading.firstOf_of_failed failed, Reading.firstOf_of_matched found]
  | sign spelled longest =>
      obtain ⟨no_number, no_name⟩ := sign_apart spelled rest
      obtain ⟨before, after, split⟩ := List.append_of_mem spelled
      have readings : numberAt input :: nameAt input :: signs.map (signAt input) =
          (numberAt input :: nameAt input :: before.map (signAt input)) ++
            signAt input (kind, word) :: after.map (signAt input) := by
        rw [split, List.map_append, List.map_cons]
        rfl
      -- The longer signs are tried first, so those before this one are no prefix of what is there.
      have refused : ∀ other ∈ numberAt input :: nameAt input :: before.map (signAt input),
          ∃ offset, other refs cursor = .ok (.failed offset) := by
        simp only [List.forall_mem_cons, List.forall_mem_map]
        refine ⟨number_refuses no_number refs cursor place,
          name_refuses no_name refs cursor place, ?_⟩
        intro sign member
        have listed : sign ∈ signs := by
          rw [split]
          exact List.mem_append_left _ member
        exact sign_refuses listed (not_prefix_of_earlier split longest member) refs cursor place
      refine ⟨[], ?_⟩
      rw [tokenAt, Reading.choice, readings]
      exact Reading.firstOf_of_member refused (sign_taken spelled place refs) cursor

theorem token_refuses (none_begins : ∀ kind word rest, cs = word ++ rest → ¬Lexeme kind word rest) :
    (tokenAt input).Refuses input cs := by
  intro refs cursor place
  obtain ⟨no_number, no_name, no_sign⟩ := no_lexeme_iff.mp none_begins
  apply Reading.firstOf_of_none
  simp only [List.forall_mem_cons, List.forall_mem_map]
  exact ⟨number_refuses no_number refs cursor place, name_refuses no_name refs cursor place,
    fun sign listed => sign_refuses listed (no_sign sign listed) refs cursor place⟩

/-! ## Tilings are taken -/

variable {tokens : List Token} {white tail : List Char}

theorem blanks_taken (place : Before input cursor (white ++ rest))
    (blank : ∀ c ∈ white, isBlank c = true) (visible : Next (fun c => isBlank c = false) rest)
    (refs : List Backref) :
    blanksAt input refs cursor = .ok (.matched (cursor + white.length) [] []) :=
  Reading.repeated_taken (spells_among (by decide)) place blank visible refs

theorem before_blanks (place : Before input cursor (white ++ rest))
    (blank : ∀ c ∈ white, isBlank c = true) : Before input (cursor + white.length) rest :=
  place.drop fun c member => isBlank_ascii (blank c member)

/-- What a round takes: a lexeme and the blanks behind it. -/
theorem round_taken (lexeme : Lexeme kind word (white ++ tail))
    (blank : ∀ c ∈ white, isBlank c = true) (visible : Next (fun c => isBlank c = false) tail)
    (place : Before input cursor (word ++ (white ++ tail))) (refs : List Backref) :
    ∃ stored, ((tokenAt input).andThen (blanksAt input)) refs cursor =
      .ok (.matched (cursor + word.length + white.length)
        [leaf ⟨kind, cursor, cursor + word.length⟩] stored) := by
  obtain ⟨stored, found⟩ := token_taken lexeme place refs
  have found' := blanks_taken (place.drop lexeme.ascii) blank visible (refs ++ stored)
  refine ⟨stored, ?_⟩
  rw [Reading.andThen_of_matched found, Reading.resume_of_matched found', List.append_nil,
    List.append_nil]

/-- The rounds take a tiling and come to its rest. -/
theorem Tiles.greedy (last : Reading TokenKind) (tiles : Tiles cursor cs tokens rest)
    (place : Before input cursor cs) {rounds : Nat} (enough : cs.length < rounds)
    (refs : List Backref) :
    ∃ next stored, ((tokenAt input).andThen (blanksAt input)).greedy last rounds refs cursor =
      .ok (.matched next (tokens.map leaf) stored) ∧ Before input next rest := by
  induction tiles generalizing rounds refs with
  | @stop start rest none_begins =>
      obtain ⟨rounds, rfl⟩ := Nat.exists_eq_add_one_of_ne_zero (Nat.ne_zero_of_lt enough)
      obtain ⟨offset, failed⟩ := (token_refuses none_begins).andThen (blanksAt input) refs start place
      refine ⟨start, [], ?_, place⟩
      simp only [Reading.greedy, failed, Fault.ok_bind, Fault.pure_eq_ok, List.map_nil]
  | @more start kind word white tail rest tokens lexeme blank visible later ih =>
      obtain ⟨rounds, rfl⟩ := Nat.exists_eq_add_one_of_ne_zero (Nat.ne_zero_of_lt enough)
      have positive := List.length_pos_iff.mpr lexeme.nonempty
      simp only [List.length_append] at enough
      have fewer : tail.length < rounds := by omega
      obtain ⟨stored, found⟩ := round_taken lexeme blank visible place refs
      have place' := before_blanks (place.drop lexeme.ascii) blank
      obtain ⟨next, stored', found', behind⟩ := ih place' fewer (refs ++ stored)
      refine ⟨next, stored ++ stored', ?_, behind⟩
      simp only [Reading.greedy, found, Fault.ok_bind,
        if_neg (show start + word.length + white.length ≠ start by omega)]
      exact Reading.resume_of_matched found'

theorem Tiles.repeated (tiles : Tiles cursor cs tokens rest) (place : Before input cursor cs)
    (refs : List Backref) :
    ∃ next stored, ((tokenAt input).andThen (blanksAt input)).repeated input refs cursor =
      .ok (.matched next (tokens.map leaf) stored) ∧ Before input next rest := by
  have length := length_le_encodeAll cs
  exact tiles.greedy _ place (by rw [place.left]; omega) refs

theorem exists_tiles (start : Nat) (cs : List Char) : ∃ tokens rest, Tiles start cs tokens rest := by
  induction size : cs.length using Nat.strong_induction_on generalizing start cs with
  | _ length ih =>
      by_cases begins : ∃ kind word after, cs = word ++ after ∧ Lexeme kind word after
      · obtain ⟨kind, word, after, rfl, lexeme⟩ := begins
        obtain ⟨white, tail, rfl, blank, visible⟩ := split_while isBlank after
        have positive := List.length_pos_iff.mpr lexeme.nonempty
        simp only [List.length_append] at size
        obtain ⟨tokens, rest, later⟩ :=
          ih tail.length (by omega) (start + word.length + white.length) tail rfl
        exact ⟨_, rest, .more lexeme blank visible later⟩
      · refine ⟨[], cs, .stop ?_⟩
        intro kind word after split lexeme
        exact begins ⟨kind, word, after, split, lexeme⟩

/-- Behind its first blanks, a source is tiled up to a rest. -/
def Tiling (source : String) (tokens : List Token) (rest : List Char) : Prop :=
  ∃ white cs, source.toList = white ++ cs ∧ (∀ c ∈ white, isBlank c = true) ∧
    Next (fun c => isBlank c = false) cs ∧ Tiles white.length cs tokens rest

theorem exists_tiling (source : String) : ∃ tokens rest, Tiling source tokens rest := by
  obtain ⟨white, cs, split, blank, visible⟩ := split_while isBlank source.toList
  obtain ⟨tokens, rest, tiles⟩ := exists_tiles white.length cs
  exact ⟨tokens, rest, white, cs, split, blank, visible, tiles⟩

/-- The reading of a source takes its tiling and then wants the end of the input. -/
theorem sourceAt_of_tiling {source : String} (encoded : Text.Utf8.encode source = input)
    (tiling : Tiling source tokens rest) :
    ∃ next stored, Before input next rest ∧
      sourceAt input [] 0 = .ok (if next = input.size then .matched next (tokens.map leaf) stored
        else .failed next) := by
  obtain ⟨white, cs, split, blank, visible, tiles⟩ := tiling
  have place := before_text source
  rw [encoded, split] at place
  have blanks := blanks_taken place blank visible []
  have place' := before_blanks place blank
  rw [Nat.zero_add] at blanks place'
  obtain ⟨next, stored, found, behind⟩ := tiles.repeated place' []
  refine ⟨next, stored, behind, ?_⟩
  rw [sourceAt, Reading.andThen_of_matched blanks, Reading.resume_nil,
    Reading.andThen_of_matched found]
  by_cases atEnd : next = input.size
  · have ended : Reading.endOfInput ⟨input, input.size⟩ ([] ++ stored) next =
        .ok (.matched (τ := TokenKind) next [] []) := congrArg Except.ok (if_pos atEnd)
    rw [if_pos atEnd, Reading.resume_of_matched ended, List.append_nil, List.append_nil]
  · have ended : Reading.endOfInput ⟨input, input.size⟩ ([] ++ stored) next =
        .ok (.failed (τ := TokenKind) next) := congrArg Except.ok (if_neg atEnd)
    rw [if_neg atEnd, Reading.resume_of_failed ended]

/-! ## Words of tokens -/

theorem Tiles.words (tiles : Tiles cursor cs tokens rest) (place : Before input cursor cs) :
    ∀ token ∈ tokens, ∃ word after, Lexeme token.kind word after ∧
      (input.extract token.start token.stop).toList = bytes word := by
  induction tiles with
  | stop _ => exact List.forall_mem_nil _
  | @more start kind word white tail rest tokens lexeme blank visible later ih =>
      have behind := place.drop lexeme.ascii
      have covered := (place.extract behind).2
      rw [encodeAll_ascii lexeme.ascii] at covered
      exact List.forall_mem_cons.mpr
        ⟨⟨word, _, lexeme, covered⟩, ih (before_blanks behind blank)⟩

theorem Tiling.words {source : String} (encoded : Text.Utf8.encode source = input)
    (tiling : Tiling source tokens rest) :
    ∀ token ∈ tokens, ∃ word after, Lexeme token.kind word after ∧
      (input.extract token.start token.stop).toList = bytes word := by
  obtain ⟨white, cs, split, blank, -, tiles⟩ := tiling
  have place := before_text source
  rw [encoded, split] at place
  have place' := before_blanks place blank
  rw [Nat.zero_add] at place'
  exact tiles.words place'

/-! ## Splitting a source -/

variable {forest : Forest TokenKind} {state after : Calculator} {source : String}

theorem tokens_of_shows {parent prev next : Option NodeId} {base : Nat}
    (shows : forest.Shows base
      (MarkedTree.layoutAll parent prev next base (tokens.map leaf))) :
    List.Forall₂ (fun id token => tokenOf forest id = .ok (some token))
      (MarkedTree.rootIds base (tokens.map leaf)) tokens := by
  induction tokens generalizing base prev with
  | nil => exact .nil
  | cons token tokens ih =>
      obtain ⟨-, root, later⟩ := Forest.shows_cons.mp shows
      refine .cons ?_ (ih later)
      rw [tokenOf, root]
      rfl

theorem tokensOf_eq (represents : forest.Represents (tokens.map leaf)) :
    tokensOf forest = .ok tokens.toArray := by
  have found := Fault.mapM_of_forall₂ (tokens_of_shows represents.shows)
  simp only [tokensOf, represents.roots_eq, Fault.ok_bind, found, Fault.pure_eq_ok]
  simp

def tokenTask : Session.Task UInt8 TokenKind :=
  { grammar := tokenGrammar, order := .natural, depth := 0, matcher := tokenRun }

theorem tokenTask_onSpan : tokenTask.onSpan = tokenGrammar.runOn .natural 0 tokenRun :=
  rfl

/-- A source is split along its tiling, or refused where this ends too early. -/
theorem tokenize_of_tiling {refs : List Backref} {trees : List (MarkedTree TokenKind)}
    (tracks : state.lexer.Tracks refs trees true) (tiling : Tiling source tokens rest) :
    ∃ next after, Before (Text.Utf8.encode source) next rest ∧
      state.tokenize source = .ok (if rest = [] then .ok tokens.toArray
        else .error (tokenParser.unexpected Text.byteLiteral (Text.Utf8.encode source) next),
          after) := by
  obtain ⟨next, stored, behind, read⟩ := sourceAt_of_tiling rfl tiling
  have full : tokenParser.full = true := rfl
  have emptied : tokenParser.reset = true := rfl
  have reads : tokenTask.reading ⟨Text.Utf8.encode source, (Text.Utf8.encode source).size⟩ =
      sourceAt (Text.Utf8.encode source) := reading_tokenRun
  rw [← reads] at read
  by_cases ended : rest = []
  · have atEnd := behind.nil_iff.mp ended
    rw [if_pos atEnd] at read
    obtain ⟨lexer, tracks', ran⟩ := Session.run_of_matched full emptied tracks read Text.byteLiteral
    rw [if_neg (by omega), tokenTask_onSpan] at ran
    have found : tokensOf lexer.forestD = .ok tokens.toArray := tokensOf_eq tracks'.represents
    refine ⟨next, ⟨lexer, state.parser, tokens.toArray, tokens.toArray.map Token.kind⟩, behind, ?_⟩
    simp only [tokenize, ran, Fault.ok_bind, found, Fault.pure_eq_ok, if_pos ended]
  · have early : ¬next = (Text.Utf8.encode source).size :=
      fun atEnd => ended (behind.nil_iff.mpr atEnd)
    rw [if_neg early] at read
    obtain ⟨lexer, ran⟩ := Session.run_of_failed emptied tracks read Text.byteLiteral
    rw [tokenTask_onSpan] at ran
    refine ⟨next, { state with lexer }, behind, ?_⟩
    simp only [tokenize, ran, Fault.ok_bind, Fault.pure_eq_ok, if_neg ended]

theorem tiling_of_tokenize {refs : List Backref} {trees : List (MarkedTree TokenKind)}
    {found : Array Token} (tracks : state.lexer.Tracks refs trees true)
    (lexes : state.tokenize source = .ok (.ok found, after)) : Tiling source found.toList [] := by
  obtain ⟨tokens, rest, tiling⟩ := exists_tiling source
  obtain ⟨next, lexed, -, ran⟩ := tokenize_of_tiling tracks tiling
  rw [lexes] at ran
  by_cases ended : rest = []
  · rw [if_pos ended] at ran
    cases ran
    rwa [← ended]
  · rw [if_neg ended] at ran
    cases ran

end Calculator

end PegForest
