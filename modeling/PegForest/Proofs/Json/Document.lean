import PegForest.Language.Json.Value
import PegForest.Proofs.Json.Numeral
import PegForest.Proofs.Json.Padding

/-!
# Documents

A phrase is a derivation in the grammar of the standard, from a structural character with its blanks
and the letters of a number up to a value.  It has a text, and a phrase is derived by the standard
just if it is the text of a phrase: `derives_iff`.

What a phrase denotes is defined on the derivation: an array holds what its elements denote in their
order, an object holds keys and values in their order, whether or not a key comes twice, a string
and a key are their contents, and a number is the one that its own letters write.
-/

set_option autoImplicit false

namespace PegForest.Json

structure Structural (mark : Char) where
  before : List Char
  after : List Char
  blank : before ∈ Syntax.ws
  blank' : after ∈ Syntax.ws

def Structural.text {mark : Char} (structural : Structural mark) : List Char :=
  structural.before ++ mark :: structural.after

structure Numeral where
  letters : List Char
  derived : letters ∈ Syntax.number

def Numeral.value (numeral : Numeral) : Binary64 :=
  (Decimal.read? (encodeAll numeral.letters)).get
    (Option.isSome_iff_exists.mpr (read_number numeral.derived))

theorem Numeral.read_eq (numeral : Numeral) :
    Decimal.read? (encodeAll numeral.letters) = some numeral.value :=
  (Option.some_get _).symm

inductive Phrase : Syntax.Symbol → Type where
  | null : Phrase .value
  | true : Phrase .value
  | false : Phrase .value
  | number (numeral : Numeral) : Phrase .value
  | string (pieces : List Piece) : Phrase .value
  | emptyArray (opening : Structural '[') (closing : Structural ']') : Phrase .value
  | array (opening : Structural '[') (elements : Phrase .elements) (closing : Structural ']') :
      Phrase .value
  | emptyObject (opening : Structural '\x7b') (closing : Structural '\x7d') : Phrase .value
  | object (opening : Structural '\x7b') (members : Phrase .members) (closing : Structural '\x7d') :
      Phrase .value
  | member (key : List Piece) (colon : Structural ':') (value : Phrase .value) : Phrase .member
  | lastMember (member : Phrase .member) : Phrase .members
  | moreMembers (member : Phrase .member) (comma : Structural ',') (others : Phrase .members) :
      Phrase .members
  | lastElement (value : Phrase .value) : Phrase .elements
  | moreElements (value : Phrase .value) (comma : Structural ',') (others : Phrase .elements) :
      Phrase .elements

/-- What the phrases of a symbol denote. -/
def Meaning : Syntax.Symbol → Type
  | .value => Value
  | .member => String × Value
  | .members => List (String × Value)
  | .elements => List Value

namespace Phrase

variable {symbol : Syntax.Symbol}

def text : {symbol : Syntax.Symbol} → Phrase symbol → List Char
  | _, .null => ['n', 'u', 'l', 'l']
  | _, .true => ['t', 'r', 'u', 'e']
  | _, .false => ['f', 'a', 'l', 's', 'e']
  | _, .number numeral => numeral.letters
  | _, .string pieces => Piece.literal pieces
  | _, .emptyArray opening closing => opening.text ++ closing.text
  | _, .array opening elements closing => opening.text ++ elements.text ++ closing.text
  | _, .emptyObject opening closing => opening.text ++ closing.text
  | _, .object opening members closing => opening.text ++ members.text ++ closing.text
  | _, .member key colon value => Piece.literal key ++ colon.text ++ value.text
  | _, .lastMember only => only.text
  | _, .moreMembers first comma others => first.text ++ comma.text ++ others.text
  | _, .lastElement value => value.text
  | _, .moreElements value comma others => value.text ++ comma.text ++ others.text

def meaning : {symbol : Syntax.Symbol} → Phrase symbol → Meaning symbol
  | _, .null => Value.null
  | _, .true => Value.bool .true
  | _, .false => Value.bool .false
  | _, .number numeral => Value.number numeral.value
  | _, .string pieces => Value.string (.ofList (Piece.contents pieces))
  | _, .emptyArray _ _ => Value.array []
  | _, .array _ elements _ => Value.array elements.meaning
  | _, .emptyObject _ _ => Value.object []
  | _, .object _ members _ => Value.object members.meaning
  | _, .member key _ value => (.ofList (Piece.contents key), value.meaning)
  | _, .lastMember only => [only.meaning]
  | _, .moreMembers first _ others => List.cons first.meaning others.meaning
  | _, .lastElement value => [value.meaning]
  | _, .moreElements value _ others => List.cons value.meaning others.meaning

def values : {symbol : Syntax.Symbol} → Phrase symbol → Nat
  | _, .null | _, .true | _, .false | _, .number _ | _, .string _ => 1
  | _, .emptyArray _ _ | _, .emptyObject _ _ => 1
  | _, .array _ elements _ => elements.values + 1
  | _, .object _ members _ => members.values + 1
  | _, .member _ _ value => value.values
  | _, .lastMember only => only.values
  | _, .moreMembers first _ others => first.values + others.values
  | _, .lastElement value => value.values
  | _, .moreElements value _ others => value.values + others.values

def members : {symbol : Syntax.Symbol} → Phrase symbol → Nat
  | _, .null | _, .true | _, .false | _, .number _ | _, .string _ => 0
  | _, .emptyArray _ _ | _, .emptyObject _ _ => 0
  | _, .array _ elements _ => elements.members
  | _, .object _ members _ => members.members
  | _, .member _ _ value => value.members + 1
  | _, .lastMember only => only.members
  | _, .moreMembers first _ others => first.members + others.members
  | _, .lastElement value => value.members
  | _, .moreElements value _ others => value.members + others.members

def keys : {symbol : Syntax.Symbol} → Phrase symbol → List (List Piece)
  | _, .null | _, .true | _, .false | _, .number _ | _, .string _ => []
  | _, .emptyArray _ _ | _, .emptyObject _ _ => []
  | _, .array _ elements _ => elements.keys
  | _, .object _ members _ => members.keys
  | _, .member key _ value => key :: value.keys
  | _, .lastMember only => only.keys
  | _, .moreMembers first _ others => first.keys ++ others.keys
  | _, .lastElement value => value.keys
  | _, .moreElements value _ others => value.keys ++ others.keys

end Phrase

/-! ## Phrases and the grammar -/

theorem mem_structural_iff {mark : Char} {w : List Char} :
    w ∈ Syntax.structural mark ↔ ∃ structural : Structural mark, structural.text = w := by
  rw [Syntax.mem_structural]
  constructor
  · intro ⟨before, blank, after, blank', spelled⟩
    exact ⟨⟨before, after, blank, blank'⟩, spelled.symm⟩
  · intro ⟨structural, spelled⟩
    exact ⟨_, structural.blank, _, structural.blank', spelled.symm⟩

theorem Structural.derives {mark : Char} (structural : Structural mark) :
    structural.text ∈ Syntax.structural mark :=
  mem_structural_iff.mpr ⟨structural, rfl⟩

theorem Phrase.derives {symbol : Syntax.Symbol} (phrase : Phrase symbol) :
    Syntax.Derives symbol phrase.text := by
  induction phrase with
  | null => exact .null
  | true => exact .true
  | false => exact .false
  | number numeral => exact .number numeral.derived
  | string pieces => exact .string (mem_string_iff.mpr ⟨pieces, rfl⟩)
  | emptyArray opening closing => exact .emptyArray opening.derives closing.derives
  | array opening _ closing ih => exact .array opening.derives ih closing.derives
  | emptyObject opening closing => exact .emptyObject opening.derives closing.derives
  | object opening _ closing ih => exact .object opening.derives ih closing.derives
  | member key colon _ ih => exact .member (mem_string_iff.mpr ⟨key, rfl⟩) colon.derives ih
  | lastMember _ ih => exact .lastMember ih
  | moreMembers _ comma _ ih ih' => exact .moreMembers ih comma.derives ih'
  | lastElement _ ih => exact .lastElement ih
  | moreElements _ comma _ ih ih' => exact .moreElements ih comma.derives ih'

/-- The standard derives the texts of phrases. -/
theorem derives_iff {symbol : Syntax.Symbol} {w : List Char} :
    Syntax.Derives symbol w ↔ ∃ phrase : Phrase symbol, phrase.text = w := by
  constructor
  · intro derived
    induction derived with
    | null => exact ⟨.null, rfl⟩
    | true => exact ⟨.true, rfl⟩
    | false => exact ⟨.false, rfl⟩
    | number derived => exact ⟨.number ⟨_, derived⟩, rfl⟩
    | string derived =>
        obtain ⟨pieces, rfl⟩ := mem_string_iff.mp derived
        exact ⟨.string pieces, rfl⟩
    | emptyArray begins ends =>
        obtain ⟨opening, rfl⟩ := mem_structural_iff.mp begins
        obtain ⟨closing, rfl⟩ := mem_structural_iff.mp ends
        exact ⟨.emptyArray opening closing, rfl⟩
    | array begins _ ends ih =>
        obtain ⟨opening, rfl⟩ := mem_structural_iff.mp begins
        obtain ⟨elements, rfl⟩ := ih
        obtain ⟨closing, rfl⟩ := mem_structural_iff.mp ends
        exact ⟨.array opening elements closing, rfl⟩
    | emptyObject begins ends =>
        obtain ⟨opening, rfl⟩ := mem_structural_iff.mp begins
        obtain ⟨closing, rfl⟩ := mem_structural_iff.mp ends
        exact ⟨.emptyObject opening closing, rfl⟩
    | object begins _ ends ih =>
        obtain ⟨opening, rfl⟩ := mem_structural_iff.mp begins
        obtain ⟨members, rfl⟩ := ih
        obtain ⟨closing, rfl⟩ := mem_structural_iff.mp ends
        exact ⟨.object opening members closing, rfl⟩
    | member derived separator _ ih =>
        obtain ⟨key, rfl⟩ := mem_string_iff.mp derived
        obtain ⟨colon, rfl⟩ := mem_structural_iff.mp separator
        obtain ⟨value, rfl⟩ := ih
        exact ⟨.member key colon value, rfl⟩
    | lastMember _ ih =>
        obtain ⟨member, rfl⟩ := ih
        exact ⟨.lastMember member, rfl⟩
    | moreMembers _ separator _ ih ih' =>
        obtain ⟨member, rfl⟩ := ih
        obtain ⟨comma, rfl⟩ := mem_structural_iff.mp separator
        obtain ⟨others, rfl⟩ := ih'
        exact ⟨.moreMembers member comma others, rfl⟩
    | lastElement _ ih =>
        obtain ⟨value, rfl⟩ := ih
        exact ⟨.lastElement value, rfl⟩
    | moreElements _ separator _ ih ih' =>
        obtain ⟨value, rfl⟩ := ih
        obtain ⟨comma, rfl⟩ := mem_structural_iff.mp separator
        obtain ⟨others, rfl⟩ := ih'
        exact ⟨.moreElements value comma others, rfl⟩
  · intro ⟨phrase, spelled⟩
    rw [← spelled]
    exact phrase.derives

/-- A value and the blanks around it. -/
structure Document where
  before : List Char
  value : Phrase .value
  after : List Char
  blank : before ∈ Syntax.ws
  blank' : after ∈ Syntax.ws

def Document.text (document : Document) : List Char :=
  document.before ++ (document.value.text ++ document.after)

def Document.meaning (document : Document) : Value :=
  document.value.meaning

/-- The texts of the standard are the texts of documents. -/
theorem mem_text_iff {w : List Char} :
    w ∈ Syntax.text ↔ ∃ document : Document, document.text = w := by
  constructor
  · intro derived
    obtain ⟨before, blank, v, inner, after, blank', rfl⟩ := Syntax.mem_padded.mp derived
    obtain ⟨value, rfl⟩ := derives_iff.mp inner
    exact ⟨⟨before, value, after, blank, blank'⟩, rfl⟩
  · intro ⟨document, spelled⟩
    exact Syntax.mem_padded.mpr ⟨_, document.blank, _, document.value.derives, _, document.blank',
      spelled.symm⟩

end PegForest.Json
