import PegForest.Language.Json.Unescape
import PegForest.Proofs.Json.Scan
import PegForest.Proofs.Reading.Text

/-!
# The contents of string literals

A string literal is a list of pieces between quotation marks.  A piece is a character that stands
for itself, a short escape, or a code unit written in hexadecimal.  A high surrogate directly followed
by a low one is one character, and any other surrogate is a replacement character.

`contents` says this of characters.  Unescaping the bytes of a literal gives the same.
-/

set_option autoImplicit false

namespace PegForest.Json

open Text.Ascii
open scoped Computability

inductive Piece where
  | plain (c : Char) (allowed : [c] ∈ Syntax.unescaped)
  | short (mark : Char) (listed : mark ∈ ['"', '\\', '/', 'b', 'f', 'n', 'r', 't'])
  | code (digits : List Char) (four : digits ∈ Syntax.hexDigit ^ 4)

namespace Piece

def text : Piece → List Char
  | plain c _ => [c]
  | short mark _ => ['\\', mark]
  | code digits _ => '\\' :: 'u' :: digits

def named : Char → Char
  | 'b' => '\x08'
  | 'f' => '\x0c'
  | 'n' => '\n'
  | 'r' => '\r'
  | 't' => '\t'
  | mark => mark

def hexDigitValue (c : Char) : Nat :=
  if c.isDigit then c.toNat - '0'.toNat
  else if 'a' ≤ c then c.toNat - 'a'.toNat + 10
  else c.toNat - 'A'.toNat + 10

def unitOf (digits : List Char) : Nat :=
  digits.foldl (fun value c => 16 * value + hexDigitValue c) 0

/-- A high surrogate and a low one. -/
def Paired (high low : Nat) : Prop :=
  (0xD800 ≤ high ∧ high < 0xDC00) ∧ 0xDC00 ≤ low ∧ low < 0xE000

instance (high low : Nat) : Decidable (Paired high low) :=
  inferInstanceAs (Decidable (_ ∧ _))

def single (unit : Nat) : Char :=
  if 0xD800 ≤ unit ∧ unit < 0xE000 then '\uFFFD' else Char.ofNat unit

def contents : List Piece → List Char
  | [] => []
  | plain c _ :: rest => c :: contents rest
  | short mark _ :: rest => named mark :: contents rest
  | code high _ :: code low four :: rest =>
      if Paired (unitOf high) (unitOf low) then
        Char.ofNat (0x10000 + (unitOf high - 0xD800) * 0x400 + (unitOf low - 0xDC00)) ::
          contents rest
      else single (unitOf high) :: contents (code low four :: rest)
  | code digits _ :: rest => single (unitOf digits) :: contents rest

def literal (pieces : List Piece) : List Char :=
  '"' :: pieces.flatMap text ++ ['"']

end Piece

/-! ## Literals and the grammar -/

theorem mem_letter_pow {test : Char → Bool} {count : Nat} {w : List Char} :
    w ∈ Syntax.letter test ^ count ↔ w.length = count ∧ ∀ c ∈ w, test c = true := by
  induction count generalizing w with
  | zero =>
      rw [pow_zero, Language.mem_one, List.length_eq_zero_iff]
      constructor
      · rintro rfl
        exact ⟨rfl, by simp⟩
      · exact And.left
  | succ count ih =>
      rw [pow_succ', Language.mem_mul]
      constructor
      · rintro ⟨_, ⟨c, passed, rfl⟩, v, later, rfl⟩
        obtain ⟨length, all⟩ := ih.mp later
        exact ⟨by simp [length], List.forall_mem_cons.mpr ⟨passed, all⟩⟩
      · rintro ⟨length, all⟩
        obtain ⟨c, rest, rfl⟩ := List.exists_cons_of_length_eq_add_one length
        rw [List.forall_mem_cons] at all
        exact ⟨[c], ⟨c, all.1, rfl⟩, rest, ih.mpr ⟨Nat.succ.inj length, all.2⟩, rfl⟩

theorem Piece.mem_language (piece : Piece) : piece.text ∈ Syntax.unescaped + Syntax.escaped := by
  cases piece with
  | plain c allowed => exact .inl allowed
  | short mark listed =>
      exact .inr (Language.append_mem_mul (Syntax.mem_letter_among.mpr rfl)
        (.inl ⟨mark, Syntax.among_iff.mpr listed, rfl⟩))
  | code digits four =>
      exact .inr (Language.append_mem_mul (Syntax.mem_letter_among.mpr rfl)
        (.inr (Language.append_mem_mul (Syntax.mem_letter_among.mpr rfl) four)))

theorem exists_piece {w : List Char} (derived : w ∈ Syntax.unescaped + Syntax.escaped) :
    ∃ piece : Piece, piece.text = w := by
  obtain plain | escaped := derived
  · have letter := plain
    rw [Scan.unescaped_eq] at letter
    obtain ⟨c, -, rfl⟩ := letter
    exact ⟨.plain c plain, rfl⟩
  · obtain ⟨slash, begins, mark, which, rfl⟩ := Language.mem_mul.mp escaped
    rw [Syntax.mem_letter_among.mp begins]
    obtain ⟨c, listed, rfl⟩ | numbered := which
    · exact ⟨.short c (Syntax.among_iff.mp listed), rfl⟩
    · obtain ⟨u, unit, digits, four, rfl⟩ := Language.mem_mul.mp numbered
      rw [Syntax.mem_letter_among.mp unit]
      exact ⟨.code digits four, rfl⟩

theorem exists_pieces {words : List (List Char)}
    (derived : ∀ w ∈ words, w ∈ Syntax.unescaped + Syntax.escaped) :
    ∃ pieces : List Piece, pieces.flatMap Piece.text = words.flatten := by
  induction words with
  | nil => exact ⟨[], rfl⟩
  | cons w rest ih =>
      rw [List.forall_mem_cons] at derived
      obtain ⟨piece, spelled⟩ := exists_piece derived.1
      obtain ⟨pieces, spelled'⟩ := ih derived.2
      exact ⟨piece :: pieces, by rw [List.flatMap_cons, spelled, spelled', List.flatten_cons]⟩

theorem mem_string_iff {w : List Char} :
    w ∈ Syntax.string ↔ ∃ pieces, Piece.literal pieces = w := by
  simp only [Syntax.string, Language.mem_mul, Syntax.mem_letter_among]
  constructor
  · rintro ⟨_, ⟨_, rfl, _, ⟨words, rfl, all⟩, rfl⟩, _, rfl, rfl⟩
    obtain ⟨pieces, spelled⟩ := exists_pieces all
    exact ⟨pieces, by rw [Piece.literal, spelled]; rfl⟩
  · rintro ⟨pieces, rfl⟩
    refine ⟨_, ⟨['"'], rfl, pieces.flatMap Piece.text, ⟨pieces.map Piece.text, ?_, ?_⟩, rfl⟩, ['"'],
      rfl, rfl⟩
    · rw [List.flatMap_def]
    · rw [List.forall_mem_map]
      exact fun piece _ => piece.mem_language

/-! ## Unescaping -/

theorem byte_slash {b : UInt8} : b = byte '\\' ↔ b.toNat = 0x5C :=
  UInt8.toNat_inj.symm

theorem units_raw {b : UInt8} (other : b.toNat ≠ 0x5C) (rest : List UInt8) :
    units (b :: rest) = .raw b :: units rest := by
  have plain : b ≠ byte '\\' := fun slash => other (byte_slash.mp slash)
  cases rest with
  | nil => exact if_neg plain
  | cons next rest => rw [units.eq_def]; exact if_neg plain

theorem write_units_raw {front : List UInt8} (other : ∀ b ∈ front, b.toNat ≠ 0x5C)
    (rest : List UInt8) : write (units (front ++ rest)) = front ++ write (units rest) := by
  induction front with
  | nil => rfl
  | cons b front ih =>
      rw [List.forall_mem_cons] at other
      rw [List.cons_append, units_raw other.1, write, ih other.2, List.cons_append]

theorem encode_plain {c : Char} (allowed : [c] ∈ Syntax.unescaped) :
    ∀ b ∈ String.utf8EncodeChar c, b.toNat ≠ 0x5C := by
  rw [Scan.unescaped_eq] at allowed
  obtain ⟨c', raw, same⟩ := allowed
  cases same
  have visible := (Scan.raw_iff.mp raw).2.2
  intro b member
  by_cases ascii : c.toNat < 128
  · rw [encode_ascii ascii, List.mem_singleton] at member
    rw [member, Reading.toNat_byte ascii]
    exact visible
  · have wide := encode_wide (Nat.le_of_not_lt ascii) b member
    omega

theorem shortEscape_byte : ∀ mark ∈ ['"', '\\', '/', 'b', 'f', 'n', 'r', 't'],
    mark ≠ 'u' ∧ mark.toNat < 128 ∧ shortEscape (byte mark) = Piece.named mark := by
  simp only [List.forall_mem_cons]
  refine ⟨?_, ?_, ?_, ?_, ?_, ?_, ?_, ?_, List.forall_mem_nil _⟩ <;> decide

theorem isDigit_byte {c : Char} (ascii : c.toNat < 128) : isDigit (byte c) = c.isDigit := by
  have place := Reading.toNat_byte ascii
  rw [Bool.eq_iff_iff]
  simp only [isDigit, Char.isDigit, Bool.and_eq_true, decide_eq_true_eq, UInt8.le_iff_toNat_le,
    place, ge_iff_le, UInt32.le_iff_toNat_le]
  exact Iff.rfl

theorem isDigit_iff {c : Char} : c.isDigit = true ↔ 0x30 ≤ c.toNat ∧ c.toNat ≤ 0x39 := by
  rw [Char.isDigit, Bool.and_eq_true, decide_eq_true_eq, decide_eq_true_eq]
  exact Iff.rfl

theorem le_small_iff {c : Char} : 'a' ≤ c ↔ 0x61 ≤ c.toNat :=
  Iff.rfl

theorem hexDigitValue_lt {c : Char} (hex : Scan.isHexDigit c = true) :
    Piece.hexDigitValue c < 16 := by
  simp only [Scan.isHexDigit, Bool.or_eq_true, Syntax.within_iff, Char.reduceToNat] at hex
  simp only [Piece.hexDigitValue, Char.reduceToNat, isDigit_iff, le_small_iff]
  split_ifs <;> omega

theorem hexValue_byte {c : Char} (hex : Scan.isHexDigit c = true) :
    c.toNat < 128 ∧ hexValue (byte c) = Piece.hexDigitValue c := by
  simp only [Scan.isHexDigit, Bool.or_eq_true, Syntax.within_iff, Char.reduceToNat] at hex
  have ascii : c.toNat < 128 := by omega
  refine ⟨ascii, ?_⟩
  simp only [hexValue, isDigit_byte ascii, Piece.hexDigitValue, digitValue, Reading.toNat_byte ascii,
    UInt8.le_iff_toNat_le, UInt8.reduceToNat, Char.reduceToNat, isDigit_iff, le_small_iff]
  split_ifs <;> omega

theorem hexNumber_bytes {digits : List Char} (hex : ∀ c ∈ digits, Scan.isHexDigit c = true) :
    hexNumber (bytes digits) = Piece.unitOf digits := by
  rw [hexNumber, bytes, List.foldl_map, Piece.unitOf]
  apply List.foldl_ext
  intro value c member
  rw [(hexValue_byte (hex c member)).2]

/-- A numbered unit is read from its four digits, whatever follows them. -/
theorem units_code_append {digits : List Char} (four : digits ∈ Syntax.hexDigit ^ 4)
    (rest : List UInt8) :
    units (encodeAll (Piece.code digits four).text ++ rest) =
      .code (Piece.unitOf digits) :: units rest := by
  rw [Scan.hexDigit_language] at four
  obtain ⟨length, hex⟩ := mem_letter_pow.mp four
  have number := hexNumber_bytes hex
  have ascii : ∀ c ∈ '\\' :: 'u' :: digits, c.toNat < 128 := by
    rw [List.forall_mem_cons, List.forall_mem_cons]
    exact ⟨by decide, by decide, fun c member => (hexValue_byte (hex c member)).1⟩
  rw [Piece.text, encodeAll_ascii ascii]
  obtain ⟨w, x, y, z, rfl⟩ := List.length_eq_four.mp length
  rw [← number]
  rfl

theorem units_code {digits : List Char} (four : digits ∈ Syntax.hexDigit ^ 4) (rest : List Char) :
    units (encodeAll ((Piece.code digits four).text ++ rest)) =
      .code (Piece.unitOf digits) :: units (encodeAll rest) := by
  rw [encodeAll_append, units_code_append]

theorem units_short {mark : Char} (listed : mark ∈ ['"', '\\', '/', 'b', 'f', 'n', 'r', 't'])
    (rest : List Char) :
    units (encodeAll ((Piece.short mark listed).text ++ rest)) =
      .short (Piece.named mark) :: units (encodeAll rest) := by
  obtain ⟨other, ascii, named⟩ := shortEscape_byte mark listed
  have ascii' : ∀ c ∈ ['\\', mark], c.toNat < 128 := by
    rw [List.forall_mem_cons, List.forall_mem_singleton]
    exact ⟨by decide, ascii⟩
  have unnumbered : byte mark ≠ byte 'u' := fun same =>
    other ((Reading.byte_inj ascii (by decide)).mp same)
  rw [encodeAll_append, Piece.text, encodeAll_ascii ascii', ← named]
  change units (byte '\\' :: byte mark :: encodeAll rest) = _
  rw [units.eq_def]
  exact (if_pos rfl).trans (if_neg unnumbered)

theorem codeChar_eq (unit : Nat) : codeChar unit = Piece.single unit := by
  rw [codeChar, Piece.single]
  simp only [isHighSurrogate, isLowSurrogate, Bool.or_eq_true, Bool.and_eq_true, decide_eq_true_eq]
  split_ifs <;> first | rfl | omega

theorem paired_iff {high low : Nat} :
    (isHighSurrogate high && isLowSurrogate low) = true ↔ Piece.Paired high low := by
  simp only [isHighSurrogate, isLowSurrogate, Bool.and_eq_true, decide_eq_true_eq, Piece.Paired]
  omega

theorem write_code_alone {unit : Nat} {us : List StringUnit}
    (alone : ∀ next rest, us ≠ .code next :: rest) :
    write (.code unit :: us) = String.utf8EncodeChar (Piece.single unit) ++ write us := by
  rw [← codeChar_eq]
  cases us with
  | nil => rfl
  | cons next rest =>
      cases next with
      | raw b => rfl
      | short c => rfl
      | code next => exact absurd rfl (alone next rest)

theorem units_unnumbered {pieces : List Piece}
    (other : ∀ digits four rest, pieces = .code digits four :: rest → False) (next : Nat)
    (rest : List StringUnit) :
    units (encodeAll (pieces.flatMap Piece.text)) ≠ .code next :: rest := by
  cases pieces with
  | nil =>
      intro impossible
      cases impossible
  | cons piece pieces =>
      rw [List.flatMap_cons]
      cases piece with
      | plain c allowed =>
          obtain ⟨b, tail, bytes⟩ :=
            List.exists_cons_of_ne_nil (String.utf8EncodeChar_ne_nil (c := c))
          have visible := encode_plain allowed b (by simp [bytes])
          rw [Piece.text, List.singleton_append, encodeAll_cons, bytes, List.cons_append,
            units_raw visible]
          simp
      | short mark listed =>
          rw [units_short]
          simp
      | code digits four => exact absurd rfl (other digits four pieces)

/-- What stands between the quotation marks is read and written as the contents. -/
theorem write_units (pieces : List Piece) :
    write (units (encodeAll (pieces.flatMap Piece.text))) = encodeAll (Piece.contents pieces) := by
  induction pieces using Piece.contents.induct with
  | case1 => rfl
  | case2 c allowed rest ih =>
      rw [List.flatMap_cons, Piece.text, List.singleton_append, encodeAll_cons,
        write_units_raw (encode_plain allowed), ih, Piece.contents, encodeAll_cons]
  | case3 mark listed rest ih =>
      rw [List.flatMap_cons, units_short, write, ih, Piece.contents, encodeAll_cons]
  | case4 high four low four' rest paired ih =>
      have surrogates := paired_iff.mpr paired
      rw [List.flatMap_cons, units_code, List.flatMap_cons, units_code, write, if_pos surrogates,
        ih, Piece.contents, if_pos paired, encodeAll_cons, pairChar]
  | case5 high four low four' rest unpaired ih =>
      -- The second unit is not used up: it may make a pair with the next one.
      have unpaired' := mt paired_iff.mp unpaired
      rw [List.flatMap_cons, units_code] at ih ⊢
      rw [List.flatMap_cons, units_code, write, if_neg unpaired', ih, codeChar_eq, Piece.contents,
        if_neg unpaired, encodeAll_cons]
  | case6 digits four rest other ih =>
      rw [List.flatMap_cons, units_code, write_code_alone (units_unnumbered other), ih,
        Piece.contents, encodeAll_cons]
      exact other

theorem unquote_literal (body : List UInt8) :
    unquote (byte '"' :: (body ++ [byte '"'])) = body := by
  rw [unquote, if_pos ⟨rfl, List.getLast?_concat⟩, List.dropLast_concat]

/-- The bytes that are written for a literal are those of its contents. -/
theorem write_literal (pieces : List Piece) :
    write (units (unquote (encodeAll (Piece.literal pieces)))) =
      encodeAll (Piece.contents pieces) := by
  have quote : String.utf8EncodeChar '"' = [byte '"'] := encode_ascii (by decide)
  have quoted : encodeAll (Piece.literal pieces) =
      byte '"' :: (encodeAll (pieces.flatMap Piece.text) ++ [byte '"']) := by
    rw [Piece.literal, List.cons_append, encodeAll_cons, encodeAll_append, encodeAll_cons, quote]
    rfl
  rw [quoted, unquote_literal, write_units]

/-- Unescaping the bytes of a literal gives its contents. -/
theorem unescape_literal (pieces : List Piece) :
    unescape (encodeAll (Piece.literal pieces)) = String.ofList (Piece.contents pieces) := by
  rw [unescape, write_literal, Text.Utf8.decodeLossy, Text.Utf8.decodeLossy_encodeAll]

end PegForest.Json
