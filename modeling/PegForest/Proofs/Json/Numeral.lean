import Mathlib.Data.List.TakeWhile
import PegForest.Number.Decimal
import PegForest.Proofs.Json.Contents

/-!
# Numbers of the standard are numerals

The reader of decimal text accepts more than the standard does, such as a leading plus sign, a point
without digits before it, and words.  It reads every number of the standard: the optional sign and
the digits before the point, the optional fraction and the optional exponent are found one after
another, and nothing is left over.
-/

set_option autoImplicit false

namespace PegForest.Json

open Text.Ascii Decimal
open scoped Computability

theorem all_of_mem_star {test : Char → Bool} {w : List Char} (derived : w ∈ (Syntax.letter test)∗) :
    ∀ c ∈ w, test c = true := by
  obtain ⟨words, rfl, all⟩ := derived
  intro c member
  obtain ⟨word, listed, inside⟩ := List.mem_flatten.mp member
  obtain ⟨c', passed, rfl⟩ := all word listed
  rwa [List.mem_singleton.mp inside]

def Digits (w : List Char) : Prop :=
  ∀ c ∈ w, Syntax.within '0' '9' c = true

theorem ascii_of_digit {c : Char} (digit : Syntax.within '0' '9' c = true) :
    0x30 ≤ c.toNat ∧ c.toNat ≤ 0x39 := by
  rw [Syntax.within_iff] at digit
  exact digit

theorem mem_digits {w : List Char} (derived : w ∈ Syntax.digits) : w ≠ [] ∧ Digits w := by
  obtain ⟨_, ⟨c, digit, rfl⟩, rest, later, rfl⟩ := Language.mem_mul.mp derived
  exact ⟨by simp, List.forall_mem_cons.mpr ⟨digit, all_of_mem_star later⟩⟩

theorem mem_integer {w : List Char} (derived : w ∈ Syntax.integer) : w ≠ [] ∧ Digits w := by
  obtain zero | positive := derived
  · rw [Syntax.mem_letter_among.mp zero]
    exact ⟨by simp, by simp [Digits, Syntax.within]⟩
  · obtain ⟨_, ⟨c, first, rfl⟩, rest, later, rfl⟩ := Language.mem_mul.mp positive
    refine ⟨by simp, List.forall_mem_cons.mpr ⟨?_, all_of_mem_star later⟩⟩
    rw [Syntax.within_iff] at first ⊢
    simp only [Char.reduceToNat] at first ⊢
    omega

theorem mem_fraction {w : List Char} (derived : w ∈ Syntax.fraction) :
    ∃ digits, w = '.' :: digits ∧ Digits digits := by
  obtain ⟨point, begins, digits, later, rfl⟩ := Language.mem_mul.mp derived
  rw [Syntax.mem_letter_among.mp begins]
  exact ⟨digits, rfl, (mem_digits later).2⟩

theorem mem_exponent {w : List Char} (derived : w ∈ Syntax.exponent) :
    ∃ mark sign digits, w = mark :: (sign ++ digits) ∧ mark ∈ ['e', 'E'] ∧
      sign ∈ [[], ['-'], ['+']] ∧ digits ≠ [] ∧ Digits digits := by
  obtain ⟨front, begins, digits, later, rfl⟩ := Language.mem_mul.mp derived
  obtain ⟨_, ⟨mark, marks, rfl⟩, sign, signs, rfl⟩ := Language.mem_mul.mp begins
  refine ⟨mark, sign, digits, by simp, Syntax.among_iff.mp marks, ?_, mem_digits later⟩
  obtain rfl | ⟨c, signed, rfl⟩ := signs
  · simp
  · have listed := Syntax.among_iff.mp signed
    simpa using listed

/-! ## Reading the parts -/

theorem splitSign_digit {b : UInt8} (digit : isDigit b = true) (rest : List UInt8) :
    splitSign (b :: rest) = (false, b :: rest) := by
  unfold splitSign
  split
  · next same =>
      cases same
      cases digit
  · next same =>
      cases same
      cases digit
  · rfl

theorem word_digit {b : UInt8} (digit : isDigit b = true) (negative : Bool) (rest : List UInt8) :
    word? negative (b :: rest) = none := by
  have range : 0x30 ≤ b.toNat ∧ b.toNat ≤ 0x39 := by
    simpa [isDigit, UInt8.le_iff_toNat_le] using digit
  have same : lower b = b := by
    rw [lower, if_neg]
    simp only [UInt8.le_iff_toNat_le, UInt8.reduceToNat]
    omega
  have other : ∀ c rest', 0x39 < c.toNat → c.toNat < 128 →
      b :: rest.map lower ≠ bytes (c :: rest') := by
    intro c rest' high ascii eq
    have head := congrArg UInt8.toNat (List.cons.inj eq).1
    rw [Reading.toNat_byte ascii] at head
    omega
  rw [word?, List.map_cons, same]
  simp only [if_neg (other 'i' _ (by decide) (by decide)),
    if_neg (other 'n' _ (by decide) (by decide))]

theorem splitDigits_bytes {front rest : List Char} (digits : Digits front)
    (ended : Scanner.Next (fun c => isDigit (byte c) = false) rest) :
    splitDigits (bytes (front ++ rest)) = (bytes front, bytes rest) := by
  have all : ∀ b ∈ bytes front, isDigit b = true := by
    intro b member
    obtain ⟨c, listed, rfl⟩ := List.mem_map.mp member
    exact Reading.isDigit_of_within (digits c listed)
  have stop : (bytes rest).takeWhile isDigit = [] ∧
      (bytes rest).dropWhile isDigit = bytes rest := by
    cases rest with
    | nil => exact ⟨rfl, rfl⟩
    | cons c rest =>
        have other := Scanner.next_cons.mp ended
        exact ⟨by simp [bytes, other], by simp [bytes, other]⟩
  have joined : bytes (front ++ rest) = bytes front ++ bytes rest := List.map_append
  rw [joined, splitDigits, List.takeWhile_append_of_pos all, List.dropWhile_append_of_pos all,
    stop.1, stop.2, List.append_nil]

theorem exponent_read {w : List Char} (derived : w ∈ Syntax.optional Syntax.exponent) :
    ∃ exponent, exponent? (bytes w) = some exponent := by
  obtain rfl | scaled := derived
  · exact ⟨0, rfl⟩
  · obtain ⟨mark, sign, digits, rfl, marks, signs, nonempty, all⟩ := mem_exponent scaled
    obtain ⟨c, rest, rfl⟩ := List.exists_cons_of_ne_nil nonempty
    have first := Reading.isDigit_of_within (all c List.mem_cons_self)
    obtain ⟨negative, split⟩ : ∃ negative,
        splitSign (bytes (sign ++ c :: rest)) = (negative, bytes (c :: rest)) := by
      simp only [List.mem_cons, List.not_mem_nil, or_false] at signs
      obtain rfl | rfl | rfl := signs
      · exact ⟨false, splitSign_digit first _⟩
      · exact ⟨true, rfl⟩
      · exact ⟨false, rfl⟩
    have marked : byte mark = 0x65 ∨ byte mark = 0x45 := by
      simp only [List.mem_cons, List.not_mem_nil, or_false] at marks
      obtain rfl | rfl := marks
      · exact .inl rfl
      · exact .inr rfl
    have digits : (bytes (c :: rest)).all isDigit = true := by
      rw [bytes, List.all_map, List.all_eq_true]
      exact fun d member => Reading.isDigit_of_within (all d member)
    change ∃ exponent, exponent? (byte mark :: bytes (sign ++ c :: rest)) = some exponent
    have present : ¬((bytes (c :: rest)).isEmpty || !(bytes (c :: rest)).all isDigit) = true := by
      rw [digits]
      simp [bytes]
    rw [exponent?, if_pos marked, split]
    dsimp only
    rw [if_neg present]
    cases negative with
    | true => exact ⟨_, rfl⟩
    | false => exact ⟨_, rfl⟩

theorem exponent_begins {w : List Char} (derived : w ∈ Syntax.optional Syntax.exponent) :
    Scanner.Next (fun c => isDigit (byte c) = false ∧ byte c ≠ 0x2E) w := by
  obtain rfl | scaled := derived
  · exact Scanner.next_nil _
  · obtain ⟨mark, _, _, rfl, marks, -⟩ := mem_exponent scaled
    rw [Scanner.next_cons]
    simp only [List.mem_cons, List.not_mem_nil, or_false] at marks
    obtain rfl | rfl := marks
    · decide
    · decide

theorem splitFraction_other {b : UInt8} (other : b ≠ 0x2E) (rest : List UInt8) :
    splitFraction (b :: rest) = ([], b :: rest) := by
  unfold splitFraction
  split
  · next same =>
      cases same
      exact absurd rfl other
  · rfl

/-- What follows the digits before the point: the fraction is split off and the exponent is left. -/
theorem splitFraction_bytes {fraction exponent : List Char}
    (derived : fraction ∈ Syntax.optional Syntax.fraction)
    (derived' : exponent ∈ Syntax.optional Syntax.exponent) :
    ∃ digits, splitFraction (bytes (fraction ++ exponent)) = (digits, bytes exponent) := by
  have begins := exponent_begins derived'
  obtain rfl | pointed := derived
  · refine ⟨[], ?_⟩
    cases exponent with
    | nil => rfl
    | cons c rest => exact splitFraction_other (Scanner.next_cons.mp begins).2 _
  · obtain ⟨digits, rfl, all⟩ := mem_fraction pointed
    refine ⟨bytes digits, ?_⟩
    exact splitDigits_bytes all fun c member => (begins c member).1

theorem fraction_begins {fraction exponent : List Char}
    (derived : fraction ∈ Syntax.optional Syntax.fraction)
    (derived' : exponent ∈ Syntax.optional Syntax.exponent) :
    Scanner.Next (fun c => isDigit (byte c) = false) (fraction ++ exponent) := by
  obtain rfl | pointed := derived
  · exact fun c member => (exponent_begins derived' c member).1
  · obtain ⟨digits, rfl, -⟩ := mem_fraction pointed
    exact Scanner.next_cons.mpr (by decide)

theorem unsigned_read {whole fraction exponent : List Char} (digits : Digits whole)
    (nonempty : whole ≠ []) (derived : fraction ∈ Syntax.optional Syntax.fraction)
    (derived' : exponent ∈ Syntax.optional Syntax.exponent) (negative : Bool) :
    ∃ x, unsigned? negative (bytes (whole ++ (fraction ++ exponent))) = some x := by
  have split := splitDigits_bytes digits (fraction_begins derived derived')
  obtain ⟨more, split'⟩ := splitFraction_bytes derived derived'
  obtain ⟨scale, read⟩ := exponent_read derived'
  have present : ¬((bytes whole).isEmpty && more.isEmpty) = true := by
    simp [bytes, nonempty]
  rw [unsigned?, split]
  dsimp only
  rw [split']
  dsimp only
  rw [if_neg present, read]
  exact ⟨_, rfl⟩

theorem mem_number {w : List Char} (derived : w ∈ Syntax.number) :
    ∃ sign ∈ [[], ['-']], ∃ whole ∈ Syntax.integer, ∃ fraction ∈ Syntax.optional Syntax.fraction,
      ∃ exponent ∈ Syntax.optional Syntax.exponent,
        w = sign ++ (whole ++ (fraction ++ exponent)) := by
  obtain ⟨_, ⟨_, ⟨sign, signs, whole, integer, rfl⟩, fraction, pointed, rfl⟩, exponent, scaled,
    rfl⟩ := derived
  refine ⟨sign, ?_, whole, integer, fraction, pointed, exponent, scaled, by simp⟩
  obtain rfl | minus := signs
  · simp
  · simp [Syntax.mem_letter_among.mp minus]

theorem ascii_of_digits {w : List Char} (digits : Digits w) : ∀ c ∈ w, c.toNat < 128 := by
  intro c member
  have range := ascii_of_digit (digits c member)
  omega

theorem ascii_number {w : List Char} (derived : w ∈ Syntax.number) : ∀ c ∈ w, c.toNat < 128 := by
  obtain ⟨sign, signs, whole, integer, fraction, pointed, exponent, scaled, rfl⟩ :=
    mem_number derived
  have ascii : ∀ c ∈ sign, c.toNat < 128 := by
    simp only [List.mem_cons, List.not_mem_nil, or_false] at signs
    obtain rfl | rfl := signs
    · exact List.forall_mem_nil _
    · exact List.forall_mem_singleton.mpr (by decide)
  have ascii' : ∀ c ∈ fraction, c.toNat < 128 := by
    obtain rfl | pointed := pointed
    · simp
    · obtain ⟨digits, rfl, all⟩ := mem_fraction pointed
      exact List.forall_mem_cons.mpr ⟨by decide, ascii_of_digits all⟩
  have ascii'' : ∀ c ∈ exponent, c.toNat < 128 := by
    obtain rfl | scaled := scaled
    · simp
    · obtain ⟨mark, sign, digits, rfl, marks, signs, -, all⟩ := mem_exponent scaled
      simp only [List.mem_cons, List.not_mem_nil, or_false] at marks signs
      refine List.forall_mem_cons.mpr ⟨?_, List.forall_mem_append.mpr ⟨?_, ascii_of_digits all⟩⟩
      · obtain rfl | rfl := marks <;> decide
      · obtain rfl | rfl | rfl := signs
        · exact List.forall_mem_nil _
        · exact List.forall_mem_singleton.mpr (by decide)
        · exact List.forall_mem_singleton.mpr (by decide)
  simp only [List.forall_mem_append]
  exact ⟨ascii, ascii_of_digits (mem_integer integer).2, ascii', ascii''⟩

theorem read_bytes {w : List Char} (derived : w ∈ Syntax.number) :
    ∃ x, Decimal.read? (bytes w) = some x := by
  obtain ⟨sign, signs, whole, integer, fraction, pointed, exponent, scaled, rfl⟩ :=
    mem_number derived
  obtain ⟨nonempty, digits⟩ := mem_integer integer
  have begins : ∃ b rest, isDigit b = true ∧
      bytes (whole ++ (fraction ++ exponent)) = b :: rest := by
    obtain ⟨c, rest, rfl⟩ := List.exists_cons_of_ne_nil nonempty
    exact ⟨byte c, _, Reading.isDigit_of_within (digits c List.mem_cons_self), rfl⟩
  obtain ⟨b, rest, digit, first⟩ := begins
  obtain ⟨negative, split⟩ : ∃ negative,
      splitSign (bytes (sign ++ (whole ++ (fraction ++ exponent)))) =
        (negative, bytes (whole ++ (fraction ++ exponent))) := by
    simp only [List.mem_cons, List.not_mem_nil, or_false] at signs
    obtain rfl | rfl := signs
    · rw [List.nil_append, first]
      exact ⟨false, splitSign_digit digit rest⟩
    · exact ⟨true, rfl⟩
  obtain ⟨x, read⟩ := unsigned_read digits nonempty pointed scaled negative
  refine ⟨x, ?_⟩
  -- What begins with a digit is none of the words for infinity and for no number.
  rw [Decimal.read?, split]
  dsimp only
  rw [read, first, word_digit digit, Option.none_or]

/-- Every number of the standard is read. -/
theorem read_number {w : List Char} (derived : w ∈ Syntax.number) :
    ∃ x, Decimal.read? (encodeAll w) = some x := by
  rw [encodeAll_ascii (ascii_number derived)]
  exact read_bytes derived

end PegForest.Json
