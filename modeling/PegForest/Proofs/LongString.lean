import PegForest.Language.LongString
import PegForest.Proofs.Reading.Word
import PegForest.Proofs.Session

/-!
# Long strings are recognised exactly

A text is a long string of level `n` if it is an opening bracket with `n` equals signs, a body, and
a closing bracket with as many, which stands nowhere earlier in what follows the opening one.  These
texts are accepted and no others, and what is returned is the body without one newline at its start.

The store keeps the equals signs of the opening bracket, so the closing bracket is a search for one
word of ASCII.  The bytes of the body are found a second time by counting equals signs, and they are
the encoding of the body again.
-/

set_option autoImplicit false

namespace PegForest.LongString

open Text.Ascii
open Reading (exactly_taken exactly_refused)

/-! ## Brackets -/

def opener (n : Nat) : List Char :=
  '[' :: (List.replicate n '=' ++ ['['])

def closer (n : Nat) : List Char :=
  ']' :: (List.replicate n '=' ++ [']'])

/-- The closing bracket stands behind the body and nowhere before. -/
def ClosedAtEnd (n : Nat) (body : List Char) : Prop :=
  ∀ k < body.length, ¬closer n <+: (body ++ closer n).drop k

instance (n : Nat) (body : List Char) : Decidable (ClosedAtEnd n body) :=
  inferInstanceAs (Decidable (∀ k < body.length, ¬closer n <+: (body ++ closer n).drop k))

def trimmed (body : List Char) : List Char :=
  if ['\r', '\n'] <+: body then body.drop 2
  else if ['\n'] <+: body then body.drop 1
  else body

theorem length_opener (n : Nat) : (opener n).length = n + 2 := by
  simp [opener]

theorem length_closer (n : Nat) : (closer n).length = n + 2 := by
  simp [closer]

theorem ascii_equals (n : Nat) : ∀ c ∈ List.replicate n '=', c.toNat < 128 := by
  intro c member
  rw [List.eq_of_mem_replicate member]
  decide

theorem ascii_opener (n : Nat) : ∀ c ∈ opener n, c.toNat < 128 := by
  simp only [opener, List.forall_mem_cons, List.forall_mem_append]
  exact ⟨by decide, ascii_equals n, by simp⟩

theorem ascii_closer (n : Nat) : ∀ c ∈ closer n, c.toNat < 128 := by
  simp only [closer, List.forall_mem_cons, List.forall_mem_append]
  exact ⟨by decide, ascii_equals n, by simp⟩

theorem dropNewline_eq (body : List Char) : dropNewline body = trimmed body := by
  unfold dropNewline
  split
  · simp [trimmed]
  · simp [trimmed]
  · next noReturn noNewline =>
      have ne_return : ¬['\r', '\n'] <+: body := fun ⟨rest, whole⟩ => noReturn rest whole.symm
      have ne_newline : ¬['\n'] <+: body := fun ⟨rest, whole⟩ => noNewline rest whole.symm
      rw [trimmed, if_neg ne_return, if_neg ne_newline]

/-! ## Readings -/

variable {input : Array UInt8} {n : Nat} {cs body rest : List Char}

def markAt (input : Array UInt8) (mark : Char) : Reading Empty :=
  .one ⟨input, input.size⟩ ((AtomClass.exactly (byte mark)).test .natural)

def levelAt (input : Array UInt8) : Reading Empty :=
  .store level ((markAt input '=').repeated input)

def closingAt (input : Array UInt8) : Reading Empty :=
  (markAt input ']').andThen ((Reading.backref .natural ⟨input, input.size⟩ level).andThen
    (markAt input ']'))

def bodyAt (input : Array UInt8) : Reading Empty :=
  Reading.andThen (fun refs cursor =>
    (closingAt input).upTo (Window.left ⟨input, input.size⟩ cursor) refs cursor) (closingAt input)

def task : Session.Task UInt8 Empty :=
  { grammar := grammar, order := .natural, depth := 0, matcher := longString }

def readingAt (input : Array UInt8) : Reading Empty :=
  task.reading ⟨input, input.size⟩

theorem readingAt_eq (input : Array UInt8) :
    readingAt input = (markAt input '[').andThen
      ((levelAt input).andThen ((markAt input '[').andThen (bodyAt input))) := by
  simp only [readingAt, Session.Task.reading, task, Grammar.reading, longString, closing,
    Matcher.reading, Matcher.readings, Reading.sequence, Reading.andThen_succeed]
  rfl

/-- The entry that an opening bracket leaves in the store. -/
def levelEntry (n : Nat) : Backref :=
  ⟨level, ⟨1, 1 + n⟩⟩

theorem levelAt_equals (place : Before input 1 (List.replicate n '=' ++ rest))
    (ended : Scanner.Next (· ≠ '=') rest) :
    levelAt input [] 1 = .ok (.matched (1 + n) [] [levelEntry n]) := by
  have spells := Reading.spells_exactly (d := '=') (by decide)
  have passed : ∀ c ∈ List.replicate n '=', Json.Syntax.among ['='] c = true := by
    intro c member
    rw [List.eq_of_mem_replicate member]
    rfl
  have stopped : Scanner.Next (fun c => Json.Syntax.among ['='] c = false) rest := by
    intro c first
    simpa [Json.Syntax.among] using ended c first
  have taken : (markAt input '=').repeated input [] 1 =
      .ok (.matched (1 + (List.replicate n '=').length) [] []) :=
    Reading.repeated_taken spells place passed stopped []
  rw [List.length_replicate] at taken
  simp only [levelAt, Reading.store, taken, Fault.ok_bind, Fault.pure_eq_ok, List.nil_append,
    levelEntry]

section Opened

variable (place : Before input 0 (opener n ++ rest))

include place

theorem before_equals : Before input 1 (List.replicate n '=' ++ '[' :: rest) := by
  rw [opener, List.cons_append, List.append_assoc] at place
  exact place.tail (by decide)

theorem before_second : Before input (1 + n) ('[' :: rest) := by
  have later := (before_equals place).drop (ascii_equals n)
  rwa [List.length_replicate] at later

theorem backref_level (cursor : Nat) :
    Reading.backref .natural ⟨input, input.size⟩ level [levelEntry n] cursor =
      (Reading.literal .natural ⟨input, input.size⟩ (bytes (List.replicate n '=')) : Reading Empty)
        [levelEntry n] cursor := by
  obtain ⟨inside, equals⟩ := (before_equals place).extract (before_second place)
  have found : ([levelEntry n].reverse.find? fun entry => entry.name == level) =
      some (levelEntry n) := by simp [levelEntry]
  have sliced : slice input 1 (1 + n) = .ok (input.extract 1 (1 + n)) :=
    if_pos ⟨Nat.le_add_right 1 n, inside⟩
  rw [Reading.backref_of_slice found sliced, equals, encodeAll_ascii (ascii_equals n)]

theorem closing_seeks : (closingAt input).Seeks input [levelEntry n] (closer n) where
  ascii := ascii_closer n
  nonempty := by simp [closer]
  same := by
    intro cursor
    have split : bytes (closer n) = byte ']' :: (bytes (List.replicate n '=') ++ [byte ']']) := by
      simp [closer, bytes]
    have last : (Reading.literal .natural ⟨input, input.size⟩ [byte ']'] : Reading Empty) =
        markAt input ']' := Reading.literal_singleton _ _ _
    rw [split, Reading.literal_cons, Reading.literal_append, last]
    apply Reading.one_andThen_congr
    intro cursor
    unfold Reading.andThen
    rw [backref_level place]

/-- An opening bracket is taken, and what comes next is read with its level in the store. -/
theorem readingAt_of_opener :
    readingAt input [] 0 = (bodyAt input).resume [] (n + 2) [] [levelEntry n] := by
  have first : markAt input '[' [] 0 = .ok (.matched 1 [] []) :=
    (exactly_taken (by decide) place []).1
  have level : levelAt input [] 1 = .ok (.matched (1 + n) [] [levelEntry n]) :=
    levelAt_equals (before_equals place) (Scanner.next_cons.mpr (by decide))
  have second : markAt input '[' [levelEntry n] (1 + n) = .ok (.matched (1 + n + 1) [] []) :=
    (exactly_taken (by decide) (before_second place) [levelEntry n]).1
  rw [readingAt_eq, Reading.andThen_of_matched first, Reading.resume_nil,
    Reading.andThen_of_matched level, Reading.resume, List.nil_append,
    Reading.andThen_of_matched second, Reading.resume_nil, Nat.add_comm 1, Nat.add_assoc]
  rfl

end Opened

theorem before_body (place : Before input 0 (opener n ++ rest)) : Before input (n + 2) rest := by
  have later := place.drop (ascii_opener n)
  rwa [Nat.zero_add, length_opener] at later

theorem readingAt_closed (place : Before input 0 (opener n ++ (body ++ (closer n ++ rest))))
    (closed : ClosedAtEnd n body) :
    readingAt input [] 0 = .ok (.matched (encodeAll (opener n ++ (body ++ closer n))).length []
      [levelEntry n]) := by
  have seeks := closing_seeks place
  have found := seeks.upTo_first (before_body place) (ClosedBy.first closed rest)
  have taken := seeks.found (before_body place).skip
  have whole : bodyAt input [levelEntry n] (n + 2) = .ok (.matched
      (n + 2 + (encodeAll body).length + (closer n).length) [] []) :=
    (Reading.andThen_of_matched found).trans ((Reading.resume_nil _ _ _).trans taken)
  rw [readingAt_of_opener place, Reading.resume_of_matched whole]
  simp [encodeAll_append, encodeAll_ascii (ascii_opener n), encodeAll_ascii (ascii_closer n), bytes,
    length_opener, Nat.add_assoc]

theorem readingAt_unclosed (place : Before input 0 (opener n ++ rest))
    (never : ¬closer n <:+: rest) : readingAt input [] 0 = .ok (.failed input.size) := by
  have missing := (closing_seeks place).upTo_never (before_body place) never
  have whole : bodyAt input [levelEntry n] (n + 2) = .ok (.failed input.size) :=
    Reading.andThen_of_failed missing
  rw [readingAt_of_opener place, Reading.resume_of_failed whole]

theorem exists_equals (cs : List Char) :
    ∃ n rest, cs = List.replicate n '=' ++ rest ∧ Scanner.Next (· ≠ '=') rest := by
  obtain ⟨w, rest, rfl, equal, ended⟩ := Scanner.split_while (· == '=') cs
  have same : w = List.replicate w.length '=' :=
    List.eq_replicate_of_mem fun c member => eq_of_beq (equal c member)
  exact ⟨w.length, rest, by rw [← same], fun c first => ne_of_beq_false (ended c first)⟩

theorem readingAt_unopened (place : Before input 0 cs) (unopened : ∀ n, ¬opener n <+: cs) :
    ∃ offset, readingAt input [] 0 = .ok (.failed offset) := by
  rw [readingAt_eq]
  by_cases bracket : Scanner.Next (· ≠ '[') cs
  · have refused : markAt input '[' [] 0 = .ok (.failed 0) :=
      exactly_refused (by decide) place bracket []
    exact ⟨0, Reading.andThen_of_failed refused⟩
  · obtain ⟨tail, rfl⟩ := Scanner.exists_of_mark bracket
    obtain ⟨n, rest, rfl, ended⟩ := exists_equals tail
    have first : markAt input '[' [] 0 = .ok (.matched 1 [] []) :=
      (exactly_taken (by decide) place []).1
    have from_equals : Before input 1 (List.replicate n '=' ++ rest) := place.tail (by decide)
    have past_equals := from_equals.drop (ascii_equals n)
    rw [List.length_replicate] at past_equals
    have missing : Scanner.Next (· ≠ '[') rest := by
      by_contra here
      obtain ⟨tail, rfl⟩ := Scanner.exists_of_mark here
      exact unopened n ⟨tail, by simp [opener]⟩
    have refused : markAt input '[' [levelEntry n] (1 + n) = .ok (.failed (1 + n)) :=
      exactly_refused (by decide) past_equals missing _
    refine ⟨1 + n, ?_⟩
    rw [Reading.andThen_of_matched first, Reading.resume_nil,
      Reading.andThen_of_matched (levelAt_equals from_equals ended)]
    exact Reading.resume_of_failed (Reading.andThen_of_failed refused) _

/-! ## Parsing -/

def contentsOf (text : String) : String :=
  String.ofList (dropNewline
    ((Text.Utf8.decodeFrom? none (LongString.body (Text.Utf8.encode text).toList)).getD []))

variable {text : String} {stored : List Backref}

theorem task_onSpan : task.onSpan = grammar.runOn .natural 0 longString :=
  rfl

theorem parse_of_matched {next : Nat}
    (read : readingAt (Text.Utf8.encode text) [] 0 = .ok (.matched next [] stored)) :
    parse text = .ok (if next < (Text.Utf8.encode text).size then
        .error (.trailing ⟨next, (Text.Utf8.encode text).size⟩)
      else .ok (contentsOf text)) := by
  have full : parser.full = true := rfl
  have emptied : parser.reset = true := rfl
  have fresh : Session.Fresh false (.text : Context Empty) := .text
  obtain ⟨ctx, -, ran⟩ := Session.run_of_matched full emptied fresh.tracks read Text.byteLiteral
  rw [task_onSpan] at ran
  simp only [parse, ran, Fault.ok_bind, Fault.pure_eq_ok]
  split
  · rfl
  · rfl

theorem parse_of_failed {offset : Nat}
    (read : readingAt (Text.Utf8.encode text) [] 0 = .ok (.failed offset)) :
    parse text =
      .ok (.error (parser.unexpected Text.byteLiteral (Text.Utf8.encode text) offset)) := by
  have emptied : parser.reset = true := rfl
  have fresh : Session.Fresh false (.text : Context Empty) := .text
  obtain ⟨ctx, ran⟩ := Session.run_of_failed emptied fresh.tracks read Text.byteLiteral
  rw [task_onSpan] at ran
  simp only [parse, ran, Fault.ok_bind, Fault.pure_eq_ok]
  rfl

theorem body_eq (spelled : text.toList = opener n ++ (body ++ closer n)) :
    LongString.body (Text.Utf8.encode text).toList = encodeAll body := by
  have equal : ∀ b ∈ List.replicate n (byte '='), (b == byte '=') = true := by
    intro b member
    rw [List.eq_of_mem_replicate member]
    rfl
  have whole : (Text.Utf8.encode text).toList =
      bytes (opener n) ++ (encodeAll body ++ bytes (closer n)) := by
    rw [toList_encode, spelled, encodeAll_append, encodeAll_append, encodeAll_ascii (ascii_opener n),
      encodeAll_ascii (ascii_closer n)]
  have counted : (((bytes (opener n) ++ (encodeAll body ++ bytes (closer n))).drop 1).takeWhile
      (· == byte '=')).length = n := by
    rw [opener, bytes, List.map_cons, List.map_append, List.map_replicate, List.cons_append,
      List.drop_one, List.tail_cons, List.append_assoc, List.takeWhile_append_of_pos equal]
    simp [byte]
  have front : (bytes (opener n)).length = n + 2 := by rw [bytes, List.length_map, length_opener]
  have back : (bytes (closer n)).length = n + 2 := by rw [bytes, List.length_map, length_closer]
  have kept : (bytes (opener n) ++ (encodeAll body ++ bytes (closer n))).length - (n + 2) =
      (bytes (opener n) ++ encodeAll body).length := by
    simp only [List.length_append, front, back]
    omega
  rw [whole, LongString.body, counted, kept, ← List.append_assoc, List.take_left,
    List.drop_left' front]

theorem contentsOf_eq (spelled : text.toList = opener n ++ (body ++ closer n)) :
    contentsOf text = String.ofList (trimmed body) := by
  rw [contentsOf, body_eq spelled, Text.Utf8.decodeFrom_encodeAll, Option.getD_some, dropNewline_eq]

theorem parse_of_closed (spelled : text.toList = opener n ++ (body ++ (closer n ++ rest)))
    (closed : ClosedAtEnd n body) :
    parse text = .ok (if rest = [] then .ok (contentsOf text)
      else .error (.trailing ⟨(encodeAll (opener n ++ (body ++ closer n))).length,
        (Text.Utf8.encode text).size⟩)) := by
  have place := before_text text
  rw [spelled] at place
  have read := readingAt_closed place closed
  rw [← List.append_assoc body, ← List.append_assoc (opener n)] at place
  have later := place.skip
  rw [Nat.zero_add] at later
  have size := later.size
  have left := later.nil_iff
  rw [parse_of_matched read]
  by_cases nothing : rest = []
  · rw [if_pos nothing, if_neg (Nat.not_lt_of_le (left.mp nothing).ge)]
  · have more : (encodeAll (opener n ++ (body ++ closer n))).length < (Text.Utf8.encode text).size :=
      Nat.lt_of_le_of_ne (by omega) fun atEnd => nothing (left.mpr atEnd)
    rw [if_neg nothing, if_pos more]

theorem parse_of_unclosed (spelled : text.toList = opener n ++ rest) (never : ¬closer n <:+: rest) :
    parse text = .ok (.error (.unexpected ⟨(Text.Utf8.encode text).size, (Text.Utf8.encode text).size⟩
      "<long-string>" "unexpected end of input")) := by
  have place := before_text text
  rw [spelled] at place
  rw [parse_of_failed (readingAt_unclosed place never)]
  simp [Parser.unexpected, parser]

theorem parse_of_unopened (unopened : ∀ n, ¬opener n <+: text.toList) :
    ∃ error, parse text = .ok (.error error) := by
  obtain ⟨offset, read⟩ := readingAt_unopened (before_text text) unopened
  exact ⟨_, parse_of_failed read⟩

/-- Every text is closed by the first closing bracket of its level, is never closed, or does not
begin with a bracket. -/
theorem cases_text (cs : List Char) :
    (∃ n body rest, cs = opener n ++ (body ++ (closer n ++ rest)) ∧ ClosedAtEnd n body) ∨
    (∃ n rest, cs = opener n ++ rest ∧ ¬closer n <:+: rest) ∨ ∀ n, ¬opener n <+: cs := by
  by_cases opened : ∃ n, opener n <+: cs
  · obtain ⟨n, rest, rfl⟩ := opened
    by_cases occurs : closer n <:+: rest
    · obtain ⟨body, rest, rfl, closed⟩ := exists_closedBy occurs
      exact .inl ⟨n, body, rest, rfl, closed⟩
    · exact .inr (.inl ⟨n, rest, rfl, occurs⟩)
  · exact .inr (.inr (not_exists.mp opened))

theorem exists_answer (text : String) : ∃ answer, parse text = .ok answer := by
  obtain ⟨n, body, rest, spelled, closed⟩ | ⟨n, rest, spelled, never⟩ | unopened :=
    cases_text text.toList
  · exact ⟨_, parse_of_closed spelled closed⟩
  · exact ⟨_, parse_of_unclosed spelled never⟩
  · obtain ⟨error, refused⟩ := parse_of_unopened unopened
    exact ⟨.error error, refused⟩

theorem contents_iff (text contents : String) : parse text = .ok (.ok contents) ↔
    ∃ n body, text.toList = opener n ++ (body ++ closer n) ∧ ClosedAtEnd n body ∧
      contents.toList = trimmed body := by
  constructor
  · intro accepted
    obtain ⟨n, body, rest, spelled, closed⟩ | ⟨n, rest, spelled, never⟩ | unopened :=
      cases_text text.toList
    · rw [parse_of_closed spelled closed] at accepted
      by_cases nothing : rest = []
      · rw [nothing, List.append_nil] at spelled
        rw [if_pos nothing, contentsOf_eq spelled] at accepted
        cases accepted
        exact ⟨n, body, spelled, closed, String.toList_ofList⟩
      · rw [if_neg nothing] at accepted
        cases accepted
    · rw [parse_of_unclosed spelled never] at accepted
      cases accepted
    · obtain ⟨error, refused⟩ := parse_of_unopened unopened
      rw [refused] at accepted
      cases accepted
  · intro ⟨n, body, spelled, closed, same⟩
    have ended : text.toList = opener n ++ (body ++ (closer n ++ [])) := by
      rw [List.append_nil, spelled]
    rw [parse_of_closed ended closed, if_pos rfl, contentsOf_eq spelled, ← same,
      String.ofList_toList]

/-- The texts that are one long string, and no others, are parsed; what is returned is the body
without a newline at its start, and the bytes that are cut out for it are always well formed.  A
bracket that is never closed is reported at the end of the text, and what follows the first closing
bracket is reported from there on. -/
theorem parse_longString (text : String) :
    (∃ answer, parse text = .ok answer) ∧
    (∀ contents : String, parse text = .ok (.ok contents) ↔
      ∃ n body, text.toList = opener n ++ (body ++ closer n) ∧ ClosedAtEnd n body ∧
        contents.toList = trimmed body) ∧
    (∀ n body, text.toList = opener n ++ (body ++ closer n) →
      Text.Utf8.decodeFrom? none (LongString.body (Text.Utf8.encode text).toList) = some body) ∧
    (∀ n rest, text.toList = opener n ++ rest → ¬closer n <:+: rest →
      parse text = .ok (.error (.unexpected
        ⟨(Text.Utf8.encode text).size, (Text.Utf8.encode text).size⟩ "<long-string>"
        "unexpected end of input"))) ∧
    ∀ n body rest, text.toList = opener n ++ (body ++ (closer n ++ rest)) → ClosedAtEnd n body →
      rest ≠ [] →
      parse text = .ok (.error (.trailing ⟨(encodeAll (opener n ++ (body ++ closer n))).length,
        (Text.Utf8.encode text).size⟩)) := by
  refine ⟨exists_answer text, contents_iff text, ?_, ?_, ?_⟩
  · intro n body spelled
    rw [body_eq spelled, Text.Utf8.decodeFrom_encodeAll]
  · intro n rest spelled never
    exact parse_of_unclosed spelled never
  · intro n body rest spelled closed more
    rw [parse_of_closed spelled closed, if_neg more]

theorem parse_longString_levels :
    parse "[=[\n]]é]=]" = .ok (.ok "]]é") ∧
    parse "[=[a]]" =
      .ok (.error (.unexpected ⟨6, 6⟩ "<long-string>" "unexpected end of input")) ∧
    parse "[[a]]]b" = .ok (.error (.trailing ⟨5, 7⟩)) := by
  refine ⟨?_, ?_, ?_⟩
  · obtain ⟨-, accepts, -⟩ := parse_longString "[=[\n]]é]=]"
    exact (accepts "]]é").mpr ⟨1, ['\n', ']', ']', 'é'], by decide, by decide, by decide⟩
  · obtain ⟨-, -, -, unclosed, -⟩ := parse_longString "[=[a]]"
    exact unclosed 1 ['a', ']', ']'] (by decide) (by decide)
  · obtain ⟨-, -, -, -, trailing⟩ := parse_longString "[[a]]]b"
    exact trailing 0 ['a'] [']', 'b'] (by decide) (by decide) (by decide)

end PegForest.LongString
