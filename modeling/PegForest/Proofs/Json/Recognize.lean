import PegForest.Language.Json.Grammar
import PegForest.Proofs.Json.Scan
import PegForest.Proofs.Reading.Text

/-!
# The grammar of JSON on text

On the bytes of a text the matchers of the grammar do what the scanners do on its characters,
production by production.  Only the bytes between quotes are taken one by one where the text has a
character of several bytes.

A value calls itself behind an opening bracket alone, so a depth greater than the number of
characters is enough.
-/

set_option autoImplicit false

namespace PegForest.Json

open Text.Ascii
open Reading (Scans scans_one scans_literal spells_among spells_exactly spells_within)

variable {input : Array UInt8} {bound : Nat} {ρ : Type} {call : ρ → Reading Tag}

abbrev readingOn (input : Array UInt8) (call : ρ → Reading Tag) (matcher : Matcher UInt8 Tag ρ) :
    Reading Tag :=
  matcher.reading .natural ⟨input, input.size⟩ call

theorem scans_atom {c : Char} (ascii : c.toNat < 128) :
    (readingOn input call (.atom (byte c))).Scans input bound (Scan.mark c) :=
  scans_one (spells_exactly ascii)

theorem scans_charset {set set' : List Char} (ascii : set.all (·.toNat < 128))
    (same : set.Perm set') :
    (readingOn input call (.charset (bytes set))).Scans input bound
      (Scanner.one (Syntax.among set')) := by
  have among : Syntax.among set' = Syntax.among set := by
    funext c
    exact same.symm.contains_eq
  rw [among]
  exact scans_one (spells_among ascii)

theorem scans_blanks : (readingOn input call blanks).Scans input bound Scan.blanks :=
  Scans.repeated (scans_charset (by decide) (by decide))

theorem scans_digit : (readingOn input call digit).Scans input bound Scan.digit :=
  scans_one (spells_within (by decide) (by decide))

theorem scans_digits : (readingOn input call (.plus digit)).Scans input bound Scan.digit.plus :=
  scans_digit.plus fun _ _ taken => Scanner.one_shorter taken

theorem scans_hexDigit : (readingOn input call hexDigit).Scans input bound Scan.hexDigit :=
  .choice (.cons scans_digit (.cons (scans_one (spells_within (by decide) (by decide)))
    (.cons (scans_one (spells_within (by decide) (by decide))) .nil)))

theorem scans_escape : (readingOn input call escape).Scans input bound Scan.escape := by
  refine .sequence (.cons (scans_atom (by decide)) (.cons (.choice ?_) .nil))
  refine .cons (scans_charset (by decide) (.refl _)) (.cons (.sequence ?_) .nil)
  exact .cons (scans_atom (by decide)) (.cons (scans_hexDigit.times 4) .nil)

theorem scans_integer : (readingOn input call integer).Scans input bound Scan.integer := by
  refine .choice (.cons (scans_atom (by decide)) (.cons (.sequence ?_) .nil))
  exact .cons (scans_one (spells_within (by decide) (by decide))) (.cons scans_digit.repeated .nil)

theorem scans_fraction : (readingOn input call fraction).Scans input bound Scan.fraction.optional :=
  .optional (.sequence (.cons (scans_atom (by decide)) (.cons scans_digits .nil)))

theorem scans_exponent : (readingOn input call exponent).Scans input bound Scan.exponent.optional := by
  refine .optional (.sequence (.cons (scans_charset (by decide) (.refl _)) ?_))
  exact .cons (scans_charset (by decide) (by decide)).optional (.cons scans_digits .nil)

theorem scans_number : (readingOn input call number).Scans input bound Scan.number := by
  refine Scans.building (.sequence ?_) _
  exact .cons (scans_atom (by decide)).optional
    (.cons scans_integer (.cons scans_fraction (.cons scans_exponent .nil)))

/-! ## Strings -/

def rawByte (b : UInt8) : Except Fault Bool :=
  .ok (!(bytes ['"', '\\']).contains b && decide (0x20 ≤ b.toNat))

theorem test_reserved (b : UInt8) :
    (AtomClass.among (bytes ['"', '\\'])).test .natural b =
      .ok ((bytes ['"', '\\']).contains b) := by
  rw [AtomClass.test, Except.ok.injEq, Bool.eq_iff_iff, List.any_eq_true, List.contains_iff_mem]
  simp only [Reading.natural_same, decide_eq_true_eq]
  constructor
  · rintro ⟨other, member, rfl⟩
    exact member
  · intro member
    exact ⟨b, member, rfl⟩

theorem test_visible (b : UInt8) :
    (AtomClass.except (.within 0x00 0x1F)).test .natural b = .ok (decide (0x20 ≤ b.toNat)) := by
  have bounds : ¬Comparator.natural (0x00 : UInt8) 0x1F = .gt := by decide
  have inside : Comparator.between .natural (0x00 : UInt8) 0x1F b = true ↔ ¬0x20 ≤ b.toNat := by
    have low : (0x00 : UInt8).toNat = 0x00 := rfl
    have high : (0x1F : UInt8).toNat = 0x1F := rfl
    rw [Comparator.between, Bool.and_eq_true, bne_iff_ne, bne_iff_ne, ne_eq, ne_eq,
      Reading.natural_gt, Reading.natural_gt, low, high]
    omega
  simp only [AtomClass.test, if_neg bounds, Fault.ok_bind, Fault.pure_eq_ok, Except.ok.injEq]
  rw [Bool.eq_iff_iff, Bool.not_eq_true', ← Bool.not_eq_true, inside, decide_eq_true_eq, not_not]

/-- Looking at the byte before it is taken is as good as one test of it. -/
theorem reading_unescaped (input : Array UInt8) (call : ρ → Reading Tag) (refs : List Backref)
    (cursor : Nat) :
    readingOn input call unescaped refs cursor =
      Reading.one ⟨input, input.size⟩ rawByte refs cursor := by
  simp only [readingOn, unescaped, Matcher.charset, Matcher.reading, Matcher.readings,
    Reading.sequence, Reading.andThen_succeed]
  unfold Reading.andThen Reading.notAhead
  cases peeked : Window.peek? ⟨input, input.size⟩ cursor with
  | none =>
      simp only [Reading.one_of_end peeked, Fault.ok_bind, Fault.pure_eq_ok, Reading.resume_nil]
  | some b =>
      have raw : rawByte b = .ok (!(bytes ['"', '\\']).contains b && decide (0x20 ≤ b.toNat)) := rfl
      simp only [Reading.one_of_peek peeked (test_reserved b), Reading.one_of_peek peeked raw]
      cases (bytes ['"', '\\']).contains b with
      | true => rfl
      | false =>
          simp only [Bool.false_eq_true, if_false, Fault.ok_bind, Fault.pure_eq_ok,
            Reading.resume_nil, Reading.one_of_peek peeked (test_visible b), Bool.not_false,
            Bool.true_and]

theorem spells_reserved :
    Reading.Spells (.among (bytes ['"', '\\'])) (Syntax.among ['"', '\\']) :=
  spells_among (by decide)

theorem rawByte_of_ascii (c : Char) (ascii : c.toNat < 128) :
    rawByte (byte c) = .ok (Scan.raw c) := by
  have listed := spells_reserved.ascii c ascii
  rw [test_reserved, Except.ok.injEq] at listed
  rw [rawByte, listed, Reading.toNat_byte ascii]
  rfl

theorem rawByte_of_wide (b : UInt8) (wide : 128 ≤ b.toNat) : rawByte b = .ok true := by
  have listed := spells_reserved.high b wide
  rw [test_reserved, Except.ok.injEq] at listed
  rw [rawByte, listed, Bool.not_false, Bool.true_and, Except.ok.injEq, decide_eq_true_eq]
  omega

theorem creeps_character : (readingOn input call (.choice [escape, unescaped])).Creeps input := by
  intro refs cursor b peeked wide
  have slash := (spells_exactly (d := '\\') (by decide)).high b wide
  have escaped : readingOn input call escape refs cursor = .ok (.failed cursor) := by
    simp only [readingOn, escape, Matcher.atom, Matcher.reading, Matcher.readings,
      Reading.sequence, Reading.andThen, Reading.one_of_peek peeked slash]
    rfl
  have taken : readingOn input call unescaped refs cursor = .ok (.matched (cursor + 1) [] []) := by
    rw [reading_unescaped, Reading.one_of_peek peeked (rawByte_of_wide b wide)]
    rfl
  simp only [readingOn] at escaped taken
  simp only [Matcher.reading, Matcher.readings, Reading.choice, Reading.firstOf, escaped, taken]
  rfl

theorem character_of_wide (c : Char) (rest : List Char) (wide : 128 ≤ c.toNat) :
    Scan.character (c :: rest) = some rest := by
  have refused : Scan.escape (c :: rest) = none := by
    refine Scan.sound_escape.refuses Scan.opens_escaped (Scanner.next_cons.mpr ?_)
    exact (spells_exactly (d := '\\') (by decide)).wide c wide
  have passed : Scan.raw c = true := by
    rw [Scan.raw_iff]
    omega
  simp [Scan.character, Scanner.choice, refused, Scanner.one, passed]

theorem scans_characters :
    (readingOn input call (.star (.choice [escape, unescaped]))).Scans input bound
      Scan.character.star := by
  refine Reading.Creeps.repeated creeps_character character_of_wide ?_
  intro refs cursor cs place short narrow
  have raw : Mirrors input cs (readingOn input call unescaped refs cursor)
      (Scanner.one Scan.raw cs) := by
    rw [reading_unescaped]
    exact Reading.one_mirrors rawByte_of_ascii place narrow
  exact Reading.firstOf_mirrors (.cons (scans_escape refs cursor cs place short) (.cons raw .nil)) _

theorem scans_string : (readingOn input call string).Scans input bound Scan.string := by
  refine Scans.building (.sequence ?_) _
  exact .cons (scans_atom (by decide)) (.cons scans_characters (.cons (scans_atom (by decide)) .nil))

/-! ## Values -/

theorem scans_word {word : List Char} (tag : Tag) (ascii : word.all (·.toNat < 128)) :
    (readingOn input call (.capture tag (.literal (bytes word)))).Scans input bound
      (Scanner.literal word) :=
  Scans.building (scans_literal ascii) _

section Values

variable {again : ρ} {inner part : Scanner} {matcher : Matcher UInt8 Tag ρ}

theorem scans_member (scans : (call again).Scans input bound inner) :
    (readingOn input call (member again)).Scans input bound (Scan.member inner) := by
  refine Scans.building (.sequence ?_) _
  exact .cons scans_blanks (.cons scans_string (.cons scans_blanks
    (.cons (scans_atom (by decide)) (.cons scans .nil))))

theorem scans_separated (scans : (readingOn input call matcher).Scans input bound part) :
    (readingOn input call (separated matcher)).Scans input bound (Scan.separated part) := by
  refine .sequence (.cons scans (.cons (.repeated (.sequence ?_)) .nil))
  exact .cons (scans_atom (by decide)) (.cons scans .nil)

theorem scans_bracketed {opening closing : Char} (tag : Tag) (ascii : opening.toNat < 128)
    (ascii' : closing.toNat < 128) (scans : (readingOn input call matcher).Scans input bound part) :
    (readingOn input call (.capture tag (.seq [.atom (byte opening),
      .choice [separated matcher, blanks], .atom (byte closing)]))).Scans input (bound + 1)
      (Scan.bracketed opening closing part) := by
  have body : (Reading.sequence [readingOn input call (.choice [separated matcher, blanks]),
      readingOn input call (.atom (byte closing))]).Scans input bound
      (Scanner.sequence [Scanner.choice [Scan.separated part, Scan.blanks], Scan.mark closing]) := by
    refine .sequence (.cons (.choice ?_) (.cons (scans_atom ascii') .nil))
    exact .cons (scans_separated scans) (.cons scans_blanks .nil)
  refine Scans.building ((scans_atom ascii).andThen_within body ?_) _
  intro cs rest short taken _
  have shorter := Scanner.one_shorter taken
  omega

theorem scans_value (scans : (call again).Scans input bound inner) :
    (readingOn input call (value again)).Scans input (bound + 1)
      (Scanner.sequence [Scan.blanks, Scan.core inner, Scan.blanks]) := by
  refine .sequence (.cons scans_blanks (.cons (.choice ?_) (.cons scans_blanks .nil)))
  refine .cons (scans_bracketed .object (by decide) (by decide) (scans_member scans)) ?_
  refine .cons (scans_bracketed .array (by decide) (by decide) scans) ?_
  refine .cons scans_string (.cons scans_number ?_)
  exact .cons (scans_word .true (by decide)) (.cons (scans_word .false (by decide))
    (.cons (scans_word .null (by decide)) .nil))

end Values

theorem scans_call (depth : Nat) (rule : Rule) :
    (grammar.callReading .natural ⟨input, input.size⟩ depth rule).Scans input depth
      (Scan.value depth) := by
  induction depth generalizing rule with
  | zero =>
      intro refs cursor cs _ short
      cases short
  | succ depth ih => exact scans_value (ih .value)

end PegForest.Json
