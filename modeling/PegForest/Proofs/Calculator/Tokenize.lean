import PegForest.Proofs.Calculator.Parse

/-!
# What a source is split into

A source has tokens when it is made of blanks, digits, letters, underscores and signs, and otherwise
its first other byte is refused.  The tokens stand one after the other with nothing but blanks
before, between and behind them, and each of them is the longest that begins where it does.

All this is about bytes.  A byte is read as the character with its number: a byte of ASCII is the
character that it encodes, and the bytes of other characters are read as characters that no token
and no blank has.
-/

set_option autoImplicit false

namespace PegForest.Calculator

open Text.Ascii
open Json.Syntax (among among_iff)
open Scanner (Next next_cons next_nil)

def ofByte (b : UInt8) : Char :=
  Char.ofNat b.toNat

def textAt (input : Array UInt8) (start stop : Nat) : List Char :=
  (input.extract start stop).toList.map ofByte

def inAlphabet (c : Char) : Bool :=
  isBlank c || continuesName c || among ['+', '-', '*', '/', '(', ')'] c

/-- The part of the input is covered by tokens, one after the other, with nothing but blanks left.
Each token is a lexeme, also with regard to what follows it. -/
structure Tiled (input : Array UInt8) (start stop : Nat) (tokens : List Token) : Prop where
  inside : ∀ token ∈ tokens, start ≤ token.start ∧ token.start < token.stop ∧ token.stop ≤ stop
  ordered : tokens.Pairwise fun token later => token.stop ≤ later.start
  blank : ∀ offset b, start ≤ offset → offset < stop → input[offset]? = some b →
    (∀ token ∈ tokens, offset < token.start ∨ token.stop ≤ offset) → isBlank (ofByte b) = true
  lexeme : ∀ token ∈ tokens, Lexeme token.kind (textAt input token.start token.stop)
    (textAt input token.stop input.size)

/-- The byte at the offset is the first that no source has. -/
structure FirstOutside (input : Array UInt8) (offset : Nat) (b : UInt8) : Prop where
  found : input[offset]? = some b
  outside : inAlphabet (ofByte b) = false
  earlier : ∀ place < offset, ∀ b', input[place]? = some b' → inAlphabet (ofByte b') = true

/-- What an input is split into. -/
structure Tokenizes (input : Array UInt8) (answer : Except ParseError (Array Token)) : Prop where
  accepts : (∃ tokens, answer = .ok tokens) ↔ ∀ b ∈ input, inAlphabet (ofByte b) = true
  refuses : ∀ error, answer = .error error → ∃ offset b, FirstOutside input offset b ∧
    error = .unexpected ⟨offset, offset + 1⟩ "<tokens>" ("unexpected " ++ Text.byteLiteral b)
  tiled : ∀ tokens, answer = .ok tokens → Tiled input 0 input.size tokens.toList
  /-- A longer part from the start of a token on is no token of any kind. -/
  longest : ∀ tokens, answer = .ok tokens → ∀ token ∈ tokens, ∀ kind stop, token.stop < stop →
    stop ≤ input.size → ¬Lexeme kind (textAt input token.start stop) []
  /-- The byte behind a number or a name does not go on with it, and a sign that could be doubled is
  not followed by itself. -/
  ended : ∀ tokens, answer = .ok tokens → ∀ token ∈ tokens, ∀ b, input[token.stop]? = some b →
    (token.kind = .number → isNumeric (ofByte b) = false) ∧
    (token.kind = .ident → continuesName (ofByte b) = false) ∧
    (token.kind = .plus → ofByte b ≠ '+') ∧ (token.kind = .minus → ofByte b ≠ '-')

/-! ## Bytes as characters -/

variable {input : Array UInt8} {cursor start middle stop offset : Nat} {kind : TokenKind}
  {b : UInt8} {c : Char} {cs word more rest front : List Char} {tokens later : List Token}

theorem toNat_ofByte (b : UInt8) : (ofByte b).toNat = b.toNat := by
  have small := b.toNat_lt
  have valid : b.toNat.isValidChar := .inl (by omega)
  rw [ofByte, Char.ofNat, dif_pos valid]
  rfl

theorem ofByte_byte (ascii : c.toNat < 128) : ofByte (byte c) = c := by
  rw [ofByte, Reading.toNat_byte ascii, Char.ofNat_toNat]

theorem map_ofByte_bytes (ascii : ∀ c ∈ cs, c.toNat < 128) : (bytes cs).map ofByte = cs := by
  have each : ∀ c ∈ cs, (ofByte ∘ byte) c = id c := fun c member => ofByte_byte (ascii c member)
  rw [bytes, List.map_map, List.map_congr_left each, List.map_id]

theorem first_byte (c : Char) : ∃ b more, String.utf8EncodeChar c = b :: more ∧
    (ofByte b = c ∨ 128 ≤ (ofByte b).toNat) := by
  by_cases ascii : c.toNat < 128
  · exact ⟨byte c, [], encode_ascii ascii, .inl (ofByte_byte ascii)⟩
  · obtain ⟨b, more, encoded⟩ := List.exists_cons_of_ne_nil (String.utf8EncodeChar_ne_nil (c := c))
    have wide := encode_wide (Nat.le_of_not_lt ascii)
    rw [encoded, List.forall_mem_cons] at wide
    exact ⟨b, more, encoded, .inr ((toNat_ofByte b).symm ▸ wide.1)⟩

/-- The bytes of characters, read as characters. -/
def latin (cs : List Char) : List Char :=
  (encodeAll cs).map ofByte

theorem latin_append (ascii : ∀ c ∈ word, c.toNat < 128) :
    latin (word ++ rest) = word ++ latin rest := by
  rw [latin, encodeAll_append, List.map_append, encodeAll_ascii ascii, map_ofByte_bytes ascii]
  rfl

theorem next_latin {test : Char → Bool} (ascii : ∀ c, test c = true → c.toNat < 128)
    (next : Next (fun c => test c = false) rest) : Next (fun c => test c = false) (latin rest) := by
  cases rest with
  | nil => exact next_nil _
  | cons c rest =>
      obtain ⟨b, more, encoded, same | wide⟩ := first_byte c
      · rw [latin, encodeAll_cons, encoded, List.cons_append, List.map_cons, same, next_cons]
        exact next_cons.mp next
      · rw [latin, encodeAll_cons, encoded, List.cons_append, List.map_cons, next_cons,
          ← Bool.not_eq_true]
        exact fun passed => absurd (ascii _ passed) (Nat.not_lt.mpr wide)

theorem prefix_of_latin (ascii : ∀ c ∈ word, c.toNat < 128) (begins : word <+: latin cs) :
    word <+: cs := by
  induction word generalizing cs with
  | nil => exact List.nil_prefix
  | cons c word ih =>
      rw [List.forall_mem_cons] at ascii
      cases cs with
      | nil => exact absurd (List.prefix_nil.mp begins) (List.cons_ne_nil _ _)
      | cons d cs =>
          by_cases narrow : d.toNat < 128
          · have split : latin (d :: cs) = d :: latin cs :=
              latin_append (List.forall_mem_singleton.mpr narrow)
            rw [split, List.cons_prefix_cons] at begins
            rw [List.cons_prefix_cons]
            exact ⟨begins.1, ih ascii.2 begins.2⟩
          · obtain ⟨b, more, encoded, first⟩ := first_byte d
            have wide : ¬(ofByte b).toNat < 128 :=
              first.elim (fun same => same ▸ narrow) Nat.not_lt.mpr
            rw [latin, encodeAll_cons, encoded, List.cons_append, List.map_cons,
              List.cons_prefix_cons] at begins
            exact absurd (begins.1 ▸ ascii.1) wide

theorem Lexeme.latin (lexeme : Lexeme kind word rest) : Lexeme kind word (latin rest) := by
  cases lexeme with
  | number nonempty digits ended =>
      exact .number nonempty digits (next_latin (fun _ => isNumeric_ascii) ended)
  | name opens continues ended =>
      exact .name opens continues (next_latin (fun _ => continuesName_ascii) ended)
  | sign spelled longest =>
      refine .sign spelled fun sign listed begins => longest sign listed ?_
      rw [← latin_append (signs_ascii _ spelled)] at begins
      exact prefix_of_latin (signs_ascii sign listed) begins

/-! ## The alphabet -/

theorem inAlphabet_ascii (inside : inAlphabet c = true) : c.toNat < 128 := by
  have small : ∀ d ∈ ['+', '-', '*', '/', '(', ')'], d.toNat < 128 := by simp
  simp only [inAlphabet, Bool.or_eq_true] at inside
  rcases inside with (blank | continues) | sign
  · exact isBlank_ascii blank
  · exact continuesName_ascii continues
  · exact small c (among_iff.mp sign)

theorem inAlphabet_of_blank (blank : isBlank c = true) : inAlphabet c = true := by
  rw [inAlphabet, blank, Bool.true_or, Bool.true_or]

theorem inAlphabet_of_continues (continues : continuesName c = true) : inAlphabet c = true := by
  rw [inAlphabet, continues, Bool.or_true, Bool.true_or]

theorem continuesName_of_numeric (digit : isNumeric c = true) : continuesName c = true := by
  unfold isNumeric at digit
  rw [continuesName, digit, Bool.true_or, Bool.or_true, Bool.or_true]

theorem signs_inAlphabet : ∀ sign ∈ signs, ∀ c ∈ sign.2, inAlphabet c = true := by
  simp [signs, inAlphabet, among]

theorem Lexeme.inAlphabet (lexeme : Lexeme kind word rest) : ∀ c ∈ word, inAlphabet c = true := by
  cases lexeme with
  | number _ digits _ =>
      exact fun c member => inAlphabet_of_continues (continuesName_of_numeric (digits c member))
  | name opens continues _ =>
      rw [List.forall_mem_cons]
      exact ⟨inAlphabet_of_continues (continuesName_of_opens opens),
        fun d member => inAlphabet_of_continues (continues d member)⟩
  | sign spelled _ => exact signs_inAlphabet _ spelled

theorem continuesName_cases (continues : continuesName c = true) :
    isNumeric c = true ∨ opensName c = true := by
  simp only [continuesName, Bool.or_eq_true] at continues
  simp only [isNumeric, opensName, Bool.or_eq_true]
  tauto

theorem sign_of_mark (mark : among ['+', '-', '*', '/', '(', ')'] c = true) :
    ∃ kind, (kind, [c]) ∈ signs := by
  have each : ∀ d ∈ ['+', '-', '*', '/', '(', ')'], ∃ sign ∈ signs, sign.2 = [d] := by simp [signs]
  obtain ⟨⟨kind, word⟩, listed, rfl⟩ := each c (among_iff.mp mark)
  exact ⟨kind, listed⟩

theorem not_inAlphabet (visible : isBlank c = false)
    (none_begins : ∀ kind word tail, c :: rest = word ++ tail → ¬Lexeme kind word tail) :
    inAlphabet c = false := by
  obtain ⟨no_number, no_name, no_sign⟩ := no_lexeme_iff.mp none_begins
  rw [← Bool.not_eq_true]
  intro inside
  simp only [inAlphabet, visible, Bool.false_or, Bool.or_eq_true] at inside
  rcases inside with continues | mark
  · rcases continuesName_cases continues with digit | opens
    · exact absurd digit (Bool.not_eq_true _ ▸ next_cons.mp no_number)
    · exact absurd opens (Bool.not_eq_true _ ▸ next_cons.mp no_name)
  · obtain ⟨kind, listed⟩ := sign_of_mark mark
    exact no_sign _ listed ⟨rest, rfl⟩

/-! ## Longest lexemes -/

theorem signs_kinds : ∀ sign ∈ signs, sign.1 ≠ .number ∧ sign.1 ≠ .ident ∧
    (sign.1 = .plus → sign.2 = ['+']) ∧ (sign.1 = .minus → sign.2 = ['-']) := by
  simp [signs]

theorem Lexeme.not_continued (lexeme : Lexeme kind word (c :: rest)) :
    (kind = .number → isNumeric c = false) ∧ (kind = .ident → continuesName c = false) ∧
      (kind = .plus → c ≠ '+') ∧ (kind = .minus → c ≠ '-') := by
  cases lexeme with
  | number _ _ ended => exact ⟨fun _ => next_cons.mp ended, nofun, nofun, nofun⟩
  | name _ _ ended => exact ⟨nofun, fun _ => next_cons.mp ended, nofun, nofun⟩
  | sign spelled longest =>
      obtain ⟨no_number, no_name, plus, minus⟩ := signs_kinds _ spelled
      refine ⟨fun same => absurd same no_number, fun same => absurd same no_name, ?_, ?_⟩
      · rintro same rfl
        obtain rfl : word = ['+'] := plus same
        have double : (.increment, ['+', '+']) ∈ signs := by simp [signs]
        exact absurd (longest _ double ⟨rest, rfl⟩) (by simp)
      · rintro same rfl
        obtain rfl : word = ['-'] := minus same
        have double : (.decrement, ['-', '-']) ∈ signs := by simp [signs]
        exact absurd (longest _ double ⟨rest, rfl⟩) (by simp)

theorem Lexeme.not_numeric_cons {d : Char} (lexeme : Lexeme kind (c :: word) (d :: rest))
    (digit : isNumeric c = true) : isNumeric d = false := by
  cases lexeme with
  | number _ _ ended => exact next_cons.mp ended
  | name opens _ _ => rw [not_numeric_of_opens opens] at digit; cases digit
  | sign spelled _ =>
      have apart := next_cons.mp (sign_apart spelled (d :: rest)).1
      rw [apart] at digit
      cases digit

theorem Lexeme.not_name_cons {d : Char} (lexeme : Lexeme kind (c :: word) (d :: rest))
    (opens : opensName c = true) : continuesName d = false := by
  cases lexeme with
  | number _ digits _ =>
      have digit := digits c List.mem_cons_self
      rw [not_numeric_of_opens opens] at digit
      cases digit
  | name _ _ ended => exact next_cons.mp ended
  | sign spelled _ =>
      have apart := next_cons.mp (sign_apart spelled (d :: rest)).2
      rw [apart] at opens
      cases opens

theorem Lexeme.sign_le (lexeme : Lexeme kind word rest) {sign : TokenKind × List Char}
    (listed : sign ∈ signs) (begins : sign.2 <+: word ++ rest) : sign.2.length ≤ word.length := by
  obtain ⟨c, tail, rfl⟩ := List.exists_cons_of_ne_nil lexeme.nonempty
  obtain ⟨after, same⟩ := begins
  have apart := sign_apart listed after
  rw [same, List.cons_append, next_cons, next_cons] at apart
  cases lexeme with
  | number _ digits _ =>
      rw [digits c List.mem_cons_self] at apart
      cases apart.1
  | name opens _ _ =>
      rw [opens] at apart
      cases apart.2
  | sign _ longest => exact longest sign listed ⟨after, same⟩

/-- No lexeme of any kind is longer than one that begins at the same place. -/
theorem Lexeme.not_longer (lexeme : Lexeme kind word (more ++ rest)) (nonempty : more ≠ [])
    (kind' : TokenKind) : ¬Lexeme kind' (word ++ more) [] := by
  obtain ⟨c, word, rfl⟩ := List.exists_cons_of_ne_nil lexeme.nonempty
  obtain ⟨d, more, rfl⟩ := List.exists_cons_of_ne_nil nonempty
  intro longer
  cases longer with
  | number _ digits _ =>
      have second := digits d (by simp)
      rw [lexeme.not_numeric_cons (digits c List.mem_cons_self)] at second
      cases second
  | name opens continues _ =>
      have second := continues d (by simp)
      rw [lexeme.not_name_cons opens] at second
      cases second
  | sign spelled _ =>
      have short := lexeme.sign_le spelled ⟨rest, by simp⟩
      simp only [List.length_append, List.length_cons] at short
      omega

/-! ## Parts of the input -/

theorem mem_textAt (found : input[offset]? = some b) (lower : start ≤ offset)
    (upper : offset < stop) : ofByte b ∈ textAt input start stop := by
  obtain ⟨bounded, -⟩ := Array.getElem?_eq_some_iff.mp found
  refine List.mem_map_of_mem (Array.mem_toList_iff.mpr (Array.mem_iff_getElem?.mpr ?_))
  refine ⟨offset - start, ?_⟩
  rw [Array.getElem?_extract, if_pos (by omega), Nat.add_sub_cancel' lower, found]

theorem textAt_append (ordered : start ≤ middle) (ordered' : middle ≤ stop) :
    textAt input start middle ++ textAt input middle stop = textAt input start stop := by
  rw [textAt, textAt, textAt, ← List.map_append, ← Array.toList_append,
    Array.extract_append_extract, Nat.min_eq_left ordered, Nat.max_eq_right ordered']

theorem textAt_cons (found : input[start]? = some b) (inside : start < stop) :
    textAt input start stop = ofByte b :: textAt input (start + 1) stop := by
  obtain ⟨bounded, rfl⟩ := Array.getElem?_eq_some_iff.mp found
  have first : textAt input start (start + 1) = [ofByte input[start]] := by
    rw [textAt, Array.toList_extract, List.extract_eq_take_drop, Nat.add_sub_cancel_left,
      List.drop_eq_getElem_cons (by rwa [Array.length_toList]), Array.getElem_toList]
    rfl
  rw [← textAt_append (Nat.le_succ start) inside, first]
  rfl

theorem textAt_front (place : Before input cursor (front ++ rest))
    (ascii : ∀ c ∈ front, c.toNat < 128) :
    textAt input cursor (cursor + front.length) = front := by
  rw [textAt, (place.extract (place.drop ascii)).2, encodeAll_ascii ascii, map_ofByte_bytes ascii]

theorem textAt_rest (place : Before input cursor cs) :
    textAt input cursor input.size = latin cs := by
  have size := place.size
  rw [← List.append_nil cs] at place
  have atEnd := place.skip
  rw [← size] at atEnd
  rw [textAt, (place.extract atEnd).2, latin]

/-! ## Tilings of the input -/

theorem tiled_nil (input : Array UInt8) (start : Nat) : Tiled input start start [] :=
  ⟨nofun, .nil, fun _ _ lower upper => absurd upper (Nat.not_lt.mpr lower), nofun⟩

theorem tiled_blanks (place : Before input cursor (front ++ rest))
    (blank : ∀ c ∈ front, isBlank c = true) : Tiled input cursor (cursor + front.length) [] := by
  refine ⟨nofun, .nil, ?_, nofun⟩
  intro offset b lower upper found _
  have member := mem_textAt found lower upper
  rw [textAt_front place fun c member => isBlank_ascii (blank c member)] at member
  exact blank _ member

theorem tiled_token (lexeme : Lexeme kind word rest) (place : Before input cursor (word ++ rest)) :
    Tiled input cursor (cursor + word.length) [⟨kind, cursor, cursor + word.length⟩] where
  inside := by
    have positive := List.length_pos_iff.mpr lexeme.nonempty
    rw [List.forall_mem_singleton]
    exact ⟨Nat.le_refl _, Nat.lt_add_of_pos_right positive, Nat.le_refl _⟩
  ordered := List.pairwise_singleton _ _
  blank := by
    intro offset b lower upper _ uncovered
    rcases List.forall_mem_singleton.mp uncovered with before | behind
    · exact absurd before (Nat.not_lt.mpr lower)
    · exact absurd upper (Nat.not_lt.mpr behind)
  lexeme := by
    rw [List.forall_mem_singleton, textAt_front place lexeme.ascii,
      textAt_rest (place.drop lexeme.ascii)]
    exact lexeme.latin

theorem Tiled.append (tiled : Tiled input start middle tokens) (ordered : start ≤ middle)
    (tiled' : Tiled input middle stop later) (ordered' : middle ≤ stop) :
    Tiled input start stop (tokens ++ later) where
  inside := by
    rw [List.forall_mem_append]
    constructor
    · intro token member
      obtain ⟨lower, positive, upper⟩ := tiled.inside token member
      exact ⟨lower, positive, upper.trans ordered'⟩
    · intro token member
      obtain ⟨lower, positive, upper⟩ := tiled'.inside token member
      exact ⟨ordered.trans lower, positive, upper⟩
  ordered := by
    refine List.pairwise_append.mpr ⟨tiled.ordered, tiled'.ordered, ?_⟩
    intro token member token' member'
    exact (tiled.inside token member).2.2.trans (tiled'.inside token' member').1
  blank := by
    intro offset b lower upper found uncovered
    rw [List.forall_mem_append] at uncovered
    by_cases first : offset < middle
    · exact tiled.blank offset b lower first found uncovered.1
    · exact tiled'.blank offset b (Nat.le_of_not_lt first) upper found uncovered.2
  lexeme := List.forall_mem_append.mpr ⟨tiled.lexeme, tiled'.lexeme⟩

theorem Tiled.inAlphabet (tiled : Tiled input start stop tokens) (found : input[offset]? = some b)
    (lower : start ≤ offset) (upper : offset < stop) : inAlphabet (ofByte b) = true := by
  by_cases uncovered : ∀ token ∈ tokens, offset < token.start ∨ token.stop ≤ offset
  · exact inAlphabet_of_blank (tiled.blank offset b lower upper found uncovered)
  · push Not at uncovered
    obtain ⟨token, member, lower', upper'⟩ := uncovered
    exact (tiled.lexeme token member).inAlphabet _ (mem_textAt found lower' upper')

theorem Tiled.longest (tiled : Tiled input start stop tokens) {token : Token}
    (member : token ∈ tokens) (longer : token.stop < offset) (bounded : offset ≤ input.size)
    (kind : TokenKind) : ¬Lexeme kind (textAt input token.start offset) [] := by
  obtain ⟨-, positive, -⟩ := tiled.inside token member
  have lexeme := tiled.lexeme token member
  have next := textAt_cons (Array.getElem?_eq_getElem (longer.trans_le bounded)) longer
  rw [← textAt_append (Nat.le_of_lt longer) bounded] at lexeme
  rw [← textAt_append (Nat.le_of_lt positive) (Nat.le_of_lt longer)]
  exact lexeme.not_longer (next ▸ List.cons_ne_nil _ _) kind

/-- The tiling of a text, given in bytes. -/
theorem Tiles.tiled (tiles : Tiles cursor cs tokens rest) (place : Before input cursor cs)
    (visible : Next (fun c => isBlank c = false) cs) :
    ∃ next, cursor ≤ next ∧ Before input next rest ∧ Tiled input cursor next tokens ∧
      Next (fun c => isBlank c = false) rest ∧
      ∀ kind word tail, rest = word ++ tail → ¬Lexeme kind word tail := by
  induction tiles with
  | @stop start rest none_begins =>
      exact ⟨start, Nat.le_refl _, place, tiled_nil input start, visible, none_begins⟩
  | @more start kind word white tail rest tokens lexeme blank visible' later ih =>
      have behind := place.drop lexeme.ascii
      obtain ⟨next, ordered, behind', tiled, ends⟩ := ih (before_blanks behind blank) visible'
      refine ⟨next, by omega, behind', ?_, ends⟩
      have gap := (tiled_blanks behind blank).append (by omega) tiled ordered
      exact (tiled_token lexeme place).append (by omega) gap (by omega)

theorem Tiling.tiled {source : String} (tiling : Tiling source tokens rest) :
    ∃ stop, Before (Text.Utf8.encode source) stop rest ∧
      Tiled (Text.Utf8.encode source) 0 stop tokens ∧ Next (fun c => isBlank c = false) rest ∧
      ∀ kind word tail, rest = word ++ tail → ¬Lexeme kind word tail := by
  obtain ⟨white, cs, split, blank, visible, tiles⟩ := tiling
  have place := before_text source
  rw [split] at place
  have place' := before_blanks place blank
  have front := tiled_blanks place blank
  rw [Nat.zero_add] at place' front
  obtain ⟨stop, ordered, behind, tiled, ends⟩ := tiles.tiled place' visible
  exact ⟨stop, behind, front.append (Nat.zero_le _) tiled ordered, ends⟩

theorem Tiled.firstOutside (tiled : Tiled input 0 stop tokens) (place : Before input stop rest)
    (left : rest ≠ []) (visible : Next (fun c => isBlank c = false) rest)
    (none_begins : ∀ kind word tail, rest = word ++ tail → ¬Lexeme kind word tail) :
    ∃ b, FirstOutside input stop b := by
  obtain ⟨c, rest, rfl⟩ := List.exists_cons_of_ne_nil left
  obtain ⟨b, more, encoded, first⟩ := first_byte c
  obtain ⟨before, whole, rfl⟩ := place
  rw [encodeAll_cons, encoded, List.cons_append] at whole
  have found : input[before.length]? = some b := by
    rw [← Array.getElem?_toList, whole]
    simp
  refine ⟨b, found, ?_, fun place early b' found' => tiled.inAlphabet found' (Nat.zero_le _) early⟩
  rcases first with same | wide
  · rw [same]
    exact not_inAlphabet (next_cons.mp visible) none_begins
  · rw [← Bool.not_eq_true]
    exact fun inside => absurd (inAlphabet_ascii inside) (Nat.not_lt.mpr wide)

/-! ## Splitting a source -/

variable {state : Calculator} {source : String}

theorem tokenizes_of_tiled (tiled : Tiled input 0 input.size tokens) :
    Tokenizes input (.ok tokens.toArray) where
  accepts := by
    refine ⟨fun _ b member => ?_, fun _ => ⟨_, rfl⟩⟩
    obtain ⟨offset, bounded, rfl⟩ := Array.mem_iff_getElem.mp member
    exact tiled.inAlphabet (Array.getElem?_eq_getElem bounded) (Nat.zero_le _) bounded
  refuses := nofun
  tiled := by
    rintro _ ⟨⟩
    exact tiled
  longest := by
    rintro _ ⟨⟩ token member kind stop longer bounded
    exact tiled.longest (List.mem_toArray.mp member) longer bounded kind
  ended := by
    rintro _ ⟨⟩ token member b found
    obtain ⟨bounded, -⟩ := Array.getElem?_eq_some_iff.mp found
    have lexeme := tiled.lexeme token (List.mem_toArray.mp member)
    rw [textAt_cons found bounded] at lexeme
    exact lexeme.not_continued

theorem tokenizes_of_outside (first : FirstOutside input offset b) :
    Tokenizes input (.error (tokenParser.unexpected Text.byteLiteral input offset)) where
  accepts := by
    refine ⟨?_, fun inside => ?_⟩
    · rintro ⟨_, ⟨⟩⟩
    have inside' := inside b (Array.mem_of_getElem? first.found)
    rw [first.outside] at inside'
    cases inside'
  refuses := by
    rintro _ ⟨⟩
    refine ⟨offset, b, first, ?_⟩
    rw [Parser.unexpected, first.found]
    rfl
  tiled := nofun
  longest := nofun
  ended := nofun

/-- A calculator in use splits every source that is made of the alphabet into its longest tokens,
and refuses every other source at its first other byte. -/
theorem tokenize_longest_match (reached : Reached state) (source : String) :
    ∃ answer after, state.tokenize source = .ok (answer, after) ∧
      Tokenizes (Text.Utf8.encode source) answer := by
  obtain ⟨refs, trees, tracks⟩ := reached.tracks_lexer
  obtain ⟨tokens, rest, tiling⟩ := exists_tiling source
  obtain ⟨next, after, behind, ran⟩ := tokenize_of_tiling tracks tiling
  obtain ⟨stop, behind', whole, visible', none_begins⟩ := tiling.tiled
  -- the lexer stops where the tiling does: the same characters are left
  have same : stop = next := by
    have size := behind.size
    have size' := behind'.size
    omega
  refine ⟨_, after, ran, ?_⟩
  by_cases ended : rest = []
  · rw [if_pos ended]
    rw [behind'.nil_iff.mp ended] at whole
    exact tokenizes_of_tiled whole
  · rw [if_neg ended, ← same]
    obtain ⟨b, first⟩ := whole.firstOutside behind' ended visible' none_begins
    exact tokenizes_of_outside first

theorem tokenize_longest_match_after_refusal :
    ∃ state tokens after, Reached state ∧
      state.tokenize " x1 +++(42)-" = .ok (.ok tokens, after) ∧
      kindsOf tokens = [.ident, .increment, .plus, .leftParen, .number, .rightParen, .minus] ∧
      Tokenizes (Text.Utf8.encode " x1 +++(42)-") (.ok tokens) := by
  have found : kindsAfter "(1" " x1 +++(42)-" =
      some [.ident, .increment, .plus, .leftParen, .number, .rightParen, .minus] := by
    decide +kernel
  obtain ⟨state, tokens, lexed, reached, lexes, kinds⟩ := exists_of_kindsAfter found
  obtain ⟨answer, after, ran, tokenizes⟩ := tokenize_longest_match reached " x1 +++(42)-"
  rw [lexes] at ran
  cases ran
  exact ⟨state, tokens, lexed, reached, lexes, kinds, tokenizes⟩

end PegForest.Calculator
