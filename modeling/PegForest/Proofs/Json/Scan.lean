import PegForest.Proofs.Json.Padding
import PegForest.Proofs.Json.Scanner

/-!
# Scanning JSON

The grammar of JSON as a scanner.  `value depth` takes a value with the blanks around it, where
brackets nest at most `depth` deep, and it takes exactly the texts of the standard.
-/

set_option autoImplicit false

namespace PegForest.Json.Scan

open Scanner Syntax
open scoped Computability

/-! ## Definitions -/

def mark (c : Char) : Scanner :=
  one (among [c])

def blanks : Scanner :=
  star (one (among [' ', '\t', '\n', '\r']))

def digit : Scanner :=
  one (within '0' '9')

def hexDigit : Scanner :=
  choice [digit, one (within 'a' 'f'), one (within 'A' 'F')]

def escape : Scanner :=
  Scanner.sequence [mark '\\',
    choice [one (among ['"', '\\', '/', 'b', 'f', 'n', 'r', 't']),
      Scanner.sequence [mark 'u', hexDigit.times 4]]]

def raw (c : Char) : Bool :=
  !among ['"', '\\'] c && decide (' ' ≤ c)

def character : Scanner :=
  choice [escape, one raw]

def string : Scanner :=
  Scanner.sequence [mark '"', character.star, mark '"']

def integer : Scanner :=
  choice [mark '0', Scanner.sequence [one (within '1' '9'), digit.star]]

def fraction : Scanner :=
  Scanner.sequence [mark '.', digit.plus]

def exponent : Scanner :=
  Scanner.sequence [one (among ['e', 'E']), (one (among ['-', '+'])).optional, digit.plus]

def number : Scanner :=
  Scanner.sequence [(mark '-').optional, integer, fraction.optional, exponent.optional]

def member (value : Scanner) : Scanner :=
  Scanner.sequence [blanks, string, blanks, mark ':', value]

def separated (part : Scanner) : Scanner :=
  Scanner.sequence [part, star (Scanner.sequence [mark ',', part])]

def bracketed (opening closing : Char) (part : Scanner) : Scanner :=
  Scanner.sequence [mark opening, choice [separated part, blanks], mark closing]

def core (value : Scanner) : Scanner :=
  choice [bracketed '\x7b' '\x7d' (member value), bracketed '[' ']' value, string, number,
    literal ['t', 'r', 'u', 'e'], literal ['f', 'a', 'l', 's', 'e'], literal ['n', 'u', 'l', 'l']]

def value : (depth : Nat) → Scanner
  | 0 => fun _ => none
  | depth + 1 => Scanner.sequence [blanks, core (value depth), blanks]

/-! ## Characters -/

theorem apart_of_among {set : List Char} {test : Char → Bool} (apart : set.any test = false)
    (c : Char) (member : among set c = true) : test c = false := by
  rw [List.any_eq_false] at apart
  exact Bool.eq_false_iff.mpr (apart c (among_iff.mp member))

theorem among_apart {set : List Char} {test : Char → Bool} (apart : set.any test = false)
    (c : Char) (passed : test c = true) : among set c = false := by
  cases found : among set c with
  | false => rfl
  | true =>
      rw [apart_of_among apart c found] at passed
      cases passed

theorem toNat_le_max (c : Char) : c.toNat ≤ 0x10FFFF := by
  have valid := c.valid
  simp only [UInt32.isValidChar, Nat.isValidChar] at valid
  unfold Char.toNat
  omega

theorem raw_iff {c : Char} : raw c = true ↔
    0x20 ≤ c.toNat ∧ c.toNat ≠ 0x22 ∧ c.toNat ≠ 0x5C := by
  have quote : c = '"' ↔ c.toNat = 0x22 := Char.toNat_inj.symm
  have slash : c = '\\' ↔ c.toNat = 0x5C := Char.toNat_inj.symm
  have space : ' ' ≤ c ↔ 0x20 ≤ c.toNat := Iff.rfl
  have outside : among ['"', '\\'] c = false ↔ c.toNat ≠ 0x22 ∧ c.toNat ≠ 0x5C := by
    rw [← Bool.not_eq_true, among_iff, List.mem_pair, not_or, quote, slash]
  rw [raw, Bool.and_eq_true, Bool.not_eq_true', decide_eq_true_eq, outside, space]
  exact and_comm

theorem unescaped_eq : unescaped = letter raw := by
  rw [unescaped, letter_add, letter_add]
  congr
  funext c
  have valid := toNat_le_max c
  have bounds : ('\x20').toNat = 0x20 ∧ ('\x21').toNat = 0x21 ∧ ('\x23').toNat = 0x23 ∧
    ('\x5B').toNat = 0x5B ∧ ('\x5D').toNat = 0x5D ∧ (Char.ofNat 0x10FFFF).toNat = 0x10FFFF := by
    decide
  rw [Bool.eq_iff_iff, Bool.or_eq_true, Bool.or_eq_true, within_iff, within_iff, within_iff, raw_iff]
  omega

/-! ## Blanks and numbers -/

variable {bound : Nat}

theorem sound_blanks : Sound blanks ws :=
  (sound_one _).star

theorem takes_blanks : Takes bound blanks ws fun c => among [' ', '\t', '\n', '\r'] c = false :=
  takes_star_one _

theorem sound_digits : Sound digit.plus digits :=
  (sound_one _).plus

theorem takes_digits : Takes bound digit.plus digits fun c => within '0' '9' c = false :=
  .one_andThen _ (takes_star_one _)

theorem sound_integer : Sound integer Syntax.integer := by
  refine Sound.choice ?_
  simp only [List.forall_mem_cons, Scanner.sequence, andThen_succeed]
  refine ⟨(sound_one _).mono fun _ => .inl, ?_, by simp⟩
  exact ((sound_one _).andThen (sound_one _).star).mono fun _ => .inr

theorem takes_integer :
    Takes bound integer Syntax.integer fun c => within '0' '9' c = false := by
  refine Takes.choice_cons (takes_one _) (Takes.choice_last ?_) (sound_one _) (opens_letter _)
    (opens_letter _).mul (among_apart (by decide))
  rw [Scanner.sequence, Scanner.sequence, Scanner.sequence, andThen_succeed]
  exact .one_andThen _ (takes_star_one _)

theorem opens_integer : Opens (within '0' '9') Syntax.integer := by
  refine ((opens_letter _).add (opens_letter _).mul).mono ?_
  intro c passed
  rcases Bool.or_eq_true_iff.mp passed with zero | nonzero
  · have zero : c = '0' := by simpa [among] using zero
    rw [zero]
    decide
  · have bounds : ('0').toNat = 0x30 ∧ ('1').toNat = 0x31 := by decide
    rw [within_iff] at nonzero ⊢
    omega

theorem sound_fraction : Sound fraction Syntax.fraction := by
  simp only [fraction, Scanner.sequence, andThen_succeed]
  exact (sound_one _).andThen sound_digits

theorem takes_fraction :
    Takes bound fraction Syntax.fraction fun c => within '0' '9' c = false := by
  simp only [fraction, Scanner.sequence, andThen_succeed]
  exact .one_andThen _ takes_digits

theorem opens_fraction : Opens (among ['.']) Syntax.fraction :=
  (opens_letter _).mul

theorem sound_exponent : Sound exponent Syntax.exponent := by
  simp only [exponent, Scanner.sequence, andThen_succeed, Syntax.exponent, mul_assoc]
  exact (sound_one _).andThen ((sound_one _).optional.andThen sound_digits)

theorem opens_digits : Opens (within '0' '9') digits :=
  (opens_letter _).mul

theorem takes_exponent :
    Takes bound exponent Syntax.exponent fun c => within '0' '9' c = false := by
  simp only [exponent, Scanner.sequence, andThen_succeed, Syntax.exponent, mul_assoc]
  have sign : Takes bound (one (among ['-', '+'])).optional (optional (letter (among ['-', '+'])))
      fun c => True ∧ among ['-', '+'] c = false :=
    (takes_one _).optional (sound_one _) (opens_letter _)
  refine .one_andThen _ (sign.andThen takes_digits (opens_digits.leads ?_))
  exact fun c passed => ⟨trivial, among_apart (by decide) c passed⟩

theorem opens_exponent : Opens (among ['e', 'E']) Syntax.exponent :=
  (opens_letter _).mul.mul

def continues (c : Char) : Bool :=
  within '0' '9' c || among ['.', 'e', 'E'] c

theorem sound_number : Sound number Syntax.number := by
  simp only [number, Scanner.sequence, andThen_succeed, Syntax.number, mul_assoc]
  exact (sound_one _).optional.andThen
    (sound_integer.andThen (sound_fraction.optional.andThen sound_exponent.optional))

theorem of_not_continues {c : Char} (ends : continues c = false) :
    within '0' '9' c = false ∧ among ['.'] c = false ∧ among ['e', 'E'] c = false := by
  have split : among ['.', 'e', 'E'] c = (among ['.'] c || among ['e', 'E'] c) := by simp [among]
  rw [continues, split, Bool.or_eq_false_iff, Bool.or_eq_false_iff] at ends
  exact ends

/-- Each part of a number ends where the next one or what follows the number begins. -/
theorem takes_number : Takes bound number Syntax.number fun c => continues c = false := by
  simp only [number, Scanner.sequence, andThen_succeed, Syntax.number, mul_assoc]
  have exponentPart : Takes bound exponent.optional (optional Syntax.exponent)
      fun c => continues c = false := by
    refine (takes_exponent.optional sound_exponent opens_exponent).mono ?_
    exact fun c ends => ⟨(of_not_continues ends).1, (of_not_continues ends).2.2⟩
  have beforeExponent : Leads (optional Syntax.exponent) (fun c => continues c = false)
      fun c => within '0' '9' c = false ∧ among ['.'] c = false := by
    refine opens_exponent.leads_optional ?_ ?_
    · exact fun c e => ⟨apart_of_among (by decide) c e, apart_of_among (by decide) c e⟩
    · exact fun c ends => ⟨(of_not_continues ends).1, (of_not_continues ends).2.1⟩
  have tail := (takes_fraction.optional sound_fraction opens_fraction).andThen exponentPart
    beforeExponent
  have beforeFraction : Leads (optional Syntax.fraction) (fun c => within '0' '9' c = false)
      fun c => within '0' '9' c = false :=
    opens_fraction.leads_optional (apart_of_among (by decide)) fun _ other => other
  have digitless : Leads (optional Syntax.exponent) (fun c => continues c = false)
      fun c => within '0' '9' c = false :=
    opens_exponent.leads_optional (apart_of_among (by decide)) fun c ends => (of_not_continues ends).1
  have unsigned := takes_integer.andThen tail (beforeFraction.mul digitless)
  have minus : Takes bound (mark '-').optional (optional (letter (among ['-'])))
      fun c => True ∧ among ['-'] c = false :=
    (takes_one _).optional (sound_one _) (opens_letter _)
  refine minus.andThen unsigned (opens_integer.mul.leads ?_)
  exact fun c passed => ⟨trivial, among_apart (by decide) c passed⟩

/-! ## Strings -/

def isHexDigit (c : Char) : Bool :=
  within '0' '9' c || (within 'a' 'f' c || within 'A' 'F' c)

theorem hexDigit_eq : hexDigit = one isHexDigit :=
  choice_one_cons (choice_one_cons (choice_one _))

theorem hexDigit_language : Syntax.hexDigit = letter isHexDigit := by
  rw [Syntax.hexDigit, Syntax.digit, add_assoc, letter_add, letter_add]
  rfl

theorem sound_escape : Sound escape escaped := by
  simp only [escape, Scanner.sequence, andThen_succeed, hexDigit_eq, escaped, hexDigit_language]
  refine (sound_one _).andThen (Sound.choice ?_)
  simp only [List.forall_mem_cons]
  refine ⟨(sound_one _).mono fun _ => .inl, ?_, by simp⟩
  exact ((sound_one _).andThen ((sound_one _).times 4)).mono fun _ => .inr

theorem takes_escape : Takes bound escape escaped fun _ => True := by
  simp only [escape, Scanner.sequence, andThen_succeed, hexDigit_eq, escaped, hexDigit_language]
  refine .one_andThen _ (.choice_cons (takes_one _) (.choice_last ?_) (sound_one _) (opens_letter _)
    (opens_letter _).mul (apart_of_among (by decide)))
  exact .one_andThen _ ((takes_one _).times 4)

theorem opens_escaped : Opens (among ['\\']) escaped :=
  (opens_letter _).mul

theorem sound_character : Sound character (unescaped + escaped) := by
  refine Sound.choice ?_
  simp only [List.forall_mem_cons, unescaped_eq]
  exact ⟨sound_escape.mono fun _ => .inr, (sound_one _).mono fun _ => .inl, by simp⟩

theorem takes_character : Takes bound character (unescaped + escaped) fun _ => True := by
  rw [add_comm, unescaped_eq]
  exact .choice_cons takes_escape (.choice_last (takes_one _)) sound_escape opens_escaped
    (opens_letter _) (among_apart (by decide))

theorem opens_character : Opens (fun c => raw c || among ['\\'] c) (unescaped + escaped) := by
  rw [unescaped_eq]
  exact (opens_letter _).add opens_escaped

theorem sound_string : Sound string Syntax.string := by
  simp only [string, Scanner.sequence, andThen_succeed, Syntax.string, mul_assoc]
  exact (sound_one _).andThen (sound_character.star.andThen (sound_one _))

theorem takes_string : Takes bound string Syntax.string fun _ => True := by
  simp only [string, Scanner.sequence, andThen_succeed, Syntax.string, mul_assoc]
  have characters : Takes bound character.star (unescaped + escaped)∗
      fun c => True ∧ (raw c || among ['\\'] c) = false :=
    takes_character.star sound_character opens_character fun _ _ => trivial
  have ends : ['"'].any (fun c => raw c || among ['\\'] c) = false := by decide
  refine .one_andThen _ (characters.andThen (takes_one _) ((opens_letter _).leads ?_))
  exact fun c quote => ⟨trivial, apart_of_among ends c quote⟩

theorem opens_string : Opens (among ['"']) Syntax.string :=
  (opens_letter _).mul.mul

/-! ## Values -/

section Values

variable {part inner : Scanner} {parts values : Language Char}

theorem sound_member (sound : Sound inner values) : Sound (member inner) (memberOf values) := by
  simp only [member, Scanner.sequence, andThen_succeed, memberOf, mul_assoc]
  exact sound_blanks.andThen (sound_string.andThen (sound_blanks.andThen
    ((sound_one _).andThen sound)))

theorem sound_separated (sound : Sound part parts) : Sound (separated part) (listOf parts) := by
  simp only [separated, Scanner.sequence, andThen_succeed]
  exact sound.andThen ((sound_one _).andThen sound).star

theorem sound_bracketed (sound : Sound part parts) (opening closing : Char) :
    Sound (bracketed opening closing part) (Syntax.bracketed opening closing parts) := by
  simp only [bracketed, Scanner.sequence, andThen_succeed, Syntax.bracketed, mul_assoc]
  refine (sound_one _).andThen (Sound.andThen (Sound.choice ?_) (sound_one _))
  simp only [List.forall_mem_cons]
  exact ⟨(sound_separated sound).mono fun _ => .inl, sound_blanks.mono fun _ => .inr, by simp⟩

theorem sound_core (sound : Sound inner values) : Sound (core inner) (Syntax.core values) := by
  refine Sound.choice ?_
  simp only [List.forall_mem_cons]
  refine ⟨?_, ?_, ?_, ?_, ?_, ?_, ?_, by simp⟩
  · exact (sound_bracketed (sound_member sound) _ _).mono fun _ => .inl
  · exact (sound_bracketed sound _ _).mono fun _ word => .inr (.inl word)
  · exact sound_string.mono fun _ word => .inr (.inr (.inl word))
  · exact sound_number.mono fun _ word => .inr (.inr (.inr (.inl word)))
  · exact (sound_literal _).mono fun _ word => .inr (.inr (.inr (.inr (.inl word))))
  · exact (sound_literal _).mono fun _ word => .inr (.inr (.inr (.inr (.inr (.inl word)))))
  · exact (sound_literal _).mono fun _ word => .inr (.inr (.inr (.inr (.inr (.inr word)))))

theorem value_succ (depth : Nat) :
    value (depth + 1) = blanks.andThen ((core (value depth)).andThen blanks) := by
  simp only [value, Scanner.sequence, andThen_succeed]

theorem sound_value (depth : Nat) : Sound (value depth) text := by
  induction depth with
  | zero =>
      intro cs rest taken
      cases taken
  | succ depth ih =>
      rw [text_eq, mul_assoc, value_succ]
      exact sound_blanks.andThen ((sound_core ih).andThen sound_blanks)

def closes : Char → Bool :=
  among [',', ']', '\x7d']

theorem takes_member (takes : Takes bound inner values fun c => closes c = true) :
    Takes bound (member inner) (memberOf values) fun c => closes c = true := by
  simp only [member, Scanner.sequence, andThen_succeed, memberOf, mul_assoc]
  refine takes_blanks.andThen (takes_string.andThen (takes_blanks.andThen (.one_andThen _ takes) ?_)
    ?_) ?_
  · exact (opens_letter _).mul.leads (apart_of_among (by decide))
  · exact fun _ _ _ _ _ _ => trivial
  · exact opens_string.mul.leads (apart_of_among (by decide))

theorem takes_separated (sound : Sound part parts)
    (takes : Takes bound part parts fun c => closes c = true) :
    Takes bound (separated part) (listOf parts)
      fun c => closes c = true ∧ among [','] c = false := by
  simp only [separated, Scanner.sequence, andThen_succeed]
  have again : ∀ c, among [','] c = true → closes c = true := by
    intro c comma
    have comma : c = ',' := by simpa [among] using comma
    rw [comma]
    decide
  refine takes.andThen ((takes.one_andThen _).star ((sound_one _).andThen sound)
    (opens_letter _).mul again) ((opens_letter _).mul.leads_star again fun _ both => both.1)

/-- Nothing but blanks before a closing bracket: the list refuses and the blanks are taken. -/
theorem takes_bracketed {opening closing : Char} (sound : Sound part parts)
    (takes : Takes bound part parts fun c => closes c = true)
    (refuses : ∀ w ∈ ws, ∀ rest, Next (· = closing) rest → part (w ++ rest) = none)
    (ends : closes closing = true) (other : among [','] closing = false)
    (visible : among [' ', '\t', '\n', '\r'] closing = false) :
    Takes (bound + 1) (bracketed opening closing part) (Syntax.bracketed opening closing parts)
      fun _ => True := by
  simp only [bracketed, Scanner.sequence, andThen_succeed, Syntax.bracketed, mul_assoc]
  have inside : Takes bound (choice [separated part, blanks]) (listOf parts + ws) (· = closing) := by
    intro w word rest follows short
    rcases word with list | blank
    · have taken := takes_separated sound takes w list rest (fun c member => by
        rw [follows c member]
        exact ⟨ends, other⟩) short
      simp [choice, taken]
    · have refused : separated part (w ++ rest) = none := by
        simp [separated, Scanner.sequence, andThen, refuses w blank rest follows]
      have taken := takes_blanks w blank rest (fun c member => by
        rw [follows c member]
        exact visible) short
      simp [choice, refused, taken]
  refine .after_one _ (inside.andThen (takes_one _) ((opens_letter _).leads ?_))
  intro c same
  simpa [among] using same

/-! ### First characters -/

theorem opens_bracketed (opening closing : Char) (parts : Language Char) :
    Opens (among [opening]) (Syntax.bracketed opening closing parts) :=
  (opens_letter _).mul.mul

theorem opens_literal (c : Char) (rest : List Char) : Opens (among [c]) {c :: rest} := by
  rintro w rfl
  exact ⟨c, rest, rfl, by simp [among]⟩

def opensNumber (c : Char) : Bool :=
  among ['-'] c || within '0' '9' c

theorem opens_number : Opens opensNumber Syntax.number := by
  rw [Syntax.number, mul_assoc, mul_assoc]
  intro w word
  obtain ⟨u, sign, v, rest, rfl⟩ := Language.mem_mul.mp word
  rcases sign with rfl | minus
  · obtain ⟨c, tail, rfl, passed⟩ := opens_integer.mul v rest
    exact ⟨c, tail, rfl, by simp [opensNumber, passed]⟩
  · obtain ⟨c, tail, rfl, passed⟩ := opens_letter _ u minus
    exact ⟨c, tail ++ v, rfl, by simp [opensNumber, passed]⟩

def opensScalar (c : Char) : Bool :=
  among ['"'] c || (opensNumber c || (among ['t'] c || (among ['f'] c || among ['n'] c)))

def opensCore (c : Char) : Bool :=
  among ['\x7b'] c || (among ['['] c || opensScalar c)

theorem member_refuses {w rest : List Char} (blank : w ∈ ws)
    (follows : Next (fun c => closes c = true) rest) : member inner (w ++ rest) = none := by
  have visible := takes_blanks w blank rest
    (fun c member => apart_of_among (by decide) c (follows c member)) (Nat.lt_succ_self _)
  have refused : string rest = none := sound_string.refuses opens_string
    fun c member => apart_of_among (by decide) c (follows c member)
  simp [member, Scanner.sequence, andThen, visible, refused]

theorem takes_scalar :
    Takes bound (choice [string, number, literal ['t', 'r', 'u', 'e'],
        literal ['f', 'a', 'l', 's', 'e'], literal ['n', 'u', 'l', 'l']])
      (Syntax.string + (Syntax.number + ({['t', 'r', 'u', 'e']} +
        ({['f', 'a', 'l', 's', 'e']} + {['n', 'u', 'l', 'l']}))))
      fun c => continues c = false := by
  have word : ∀ c rest, Opens (among [c]) {c :: rest} := opens_literal
  have spelled : ∀ w, Takes bound (literal w) {w} fun c => continues c = false := takes_literal
  have falseNull := (spelled ['f', 'a', 'l', 's', 'e']).choice_cons
    (spelled ['n', 'u', 'l', 'l']).choice_last (sound_literal _) (word _ _) (word _ _)
    (among_apart (by decide))
  have words := (spelled ['t', 'r', 'u', 'e']).choice_cons falseNull (sound_literal _) (word _ _)
    ((word _ _).add (word _ _)) (among_apart (by decide))
  have noDigit : ∀ c, (among ['t'] c || (among ['f'] c || among ['n'] c)) = true →
      opensNumber c = false := by
    intro c passed
    have listed : among ['t', 'f', 'n'] c = true := by simpa [among] using passed
    exact apart_of_among (by decide) c listed
  have numbers := takes_number.choice_cons words sound_number opens_number
    ((word _ _).add ((word _ _).add (word _ _))) noDigit
  exact (takes_string.mono fun _ _ => trivial).choice_cons numbers sound_string opens_string
    (opens_number.add ((word _ _).add ((word _ _).add (word _ _)))) (among_apart (by decide))

theorem opens_scalar : Opens opensScalar (Syntax.string + (Syntax.number + ({['t', 'r', 'u', 'e']} +
    ({['f', 'a', 'l', 's', 'e']} + {['n', 'u', 'l', 'l']})))) :=
  opens_string.add (opens_number.add
    ((opens_literal _ _).add ((opens_literal _ _).add (opens_literal _ _))))

theorem opens_core (values : Language Char) : Opens opensCore (Syntax.core values) :=
  (opens_bracketed _ _ _).add ((opens_bracketed _ _ _).add opens_scalar)

theorem takes_core (sound : Sound inner values)
    (takes : Takes bound inner values fun c => closes c = true)
    (refuses : ∀ w ∈ ws, ∀ rest, Next (fun c => closes c = true) rest → inner (w ++ rest) = none) :
    Takes (bound + 1) (core inner) (Syntax.core values) fun c => continues c = false := by
  have closing : ∀ d, closes d = true → ∀ rest, Next (· = d) rest →
      Next (fun c => closes c = true) rest := by
    intro d ends rest follows c member
    rw [follows c member]
    exact ends
  have arrays : Takes (bound + 1) (bracketed '[' ']' inner) (Syntax.bracketed '[' ']' values)
      fun _ => True :=
    takes_bracketed sound takes (fun w blank rest follows =>
      refuses w blank rest (closing _ (by decide) rest follows)) (by decide) (by decide) (by decide)
  have objects : Takes (bound + 1) (bracketed '\x7b' '\x7d' (member inner))
      (Syntax.bracketed '\x7b' '\x7d' (memberOf values)) fun _ => True :=
    takes_bracketed (sound_member sound) (takes_member takes) (fun w blank rest follows =>
      member_refuses blank (closing _ (by decide) rest follows)) (by decide) (by decide) (by decide)
  have others := (arrays.mono fun _ _ => trivial).choice_cons takes_scalar
    (sound_bracketed sound _ _) (opens_bracketed _ _ _) opens_scalar (among_apart (by decide))
  exact (objects.mono fun _ _ => trivial).choice_cons others
    (sound_bracketed (sound_member sound) _ _) (opens_bracketed _ _ _)
    ((opens_bracketed _ _ _).add opens_scalar) (among_apart (by decide))

end Values

theorem value_refuses (depth : Nat) {w rest : List Char} (blank : w ∈ ws)
    (follows : Next (fun c => closes c = true) rest) : value depth (w ++ rest) = none := by
  cases depth with
  | zero => rfl
  | succ depth =>
      have visible := takes_blanks w blank rest
        (fun c member => apart_of_among (by decide) c (follows c member)) (Nat.lt_succ_self _)
      have refused : core (value depth) rest = none :=
        (sound_core (sound_value depth)).refuses (opens_core text)
          fun c member => apart_of_among (by decide) c (follows c member)
      simp [value_succ, andThen, visible, refused]

/-- Every text is taken, if it is shorter than the depth. -/
theorem takes_value (depth : Nat) : Takes depth (value depth) text fun c => closes c = true := by
  induction depth with
  | zero =>
      intro w _ rest _ short
      cases short
  | succ depth ih =>
      rw [text_eq, mul_assoc, value_succ]
      have inside := takes_core (sound_value depth) ih fun w blank rest => value_refuses depth blank
      refine takes_blanks.andThen (inside.andThen (takes_blanks.mono ?_) ?_) ?_
      · exact apart_of_among (by decide)
      · exact (opens_letter _).leads_star (apart_of_among (by decide)) (apart_of_among (by decide))
      · refine (opens_core text).mul.leads ?_
        exact among_apart (by decide)

/-- The scanner takes the whole of a list of characters just if that is a text. -/
theorem value_eq_nil_iff {depth : Nat} {cs : List Char} (short : cs.length < depth) :
    value depth cs = some [] ↔ cs ∈ text := by
  constructor
  · intro taken
    obtain ⟨w, derived, same⟩ := sound_value depth cs [] taken
    rwa [same, List.append_nil]
  · intro derived
    have taken := takes_value depth cs derived [] (next_nil _) (by simpa using short)
    rwa [List.append_nil] at taken

end PegForest.Json.Scan
