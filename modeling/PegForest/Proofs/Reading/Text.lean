import PegForest.Proofs.Json.Scanner
import PegForest.Proofs.Reading.Advance
import PegForest.Proofs.Text.Utf8

/-!
# Readings of text

When the input is the encoding of characters, a reading that looks only for ASCII bytes moves from
one character to another, and what it does can be said by a scanner on the characters.  `Scans`
ties the two: where the scanner takes characters, the reading matches and stands where the rest
begins; where the scanner refuses, the reading fails.  In particular the reading has an answer.

The bytes of a character outside ASCII all lie outside ASCII, so an ASCII byte is found only where
it is a character.
-/

set_option autoImplicit false

namespace PegForest

open Text.Ascii

/-! ## Places between characters -/

/-- The rest of the input from a cursor on encodes the characters. -/
def Before (input : Array UInt8) (cursor : Nat) (cs : List Char) : Prop :=
  ∃ front, input.toList = front ++ encodeAll cs ∧ front.length = cursor

variable {input : Array UInt8} {cursor next : Nat} {cs rest : List Char}

theorem Before.size (place : Before input cursor cs) :
    input.size = cursor + (encodeAll cs).length := by
  obtain ⟨front, whole, rfl⟩ := place
  rw [← Array.length_toList, whole, List.length_append]

theorem Before.length_le (place : Before input cursor cs) : cs.length ≤ input.size := by
  have length := length_le_encodeAll cs
  rw [place.size]
  omega

theorem before_text (text : String) : Before (Text.Utf8.encode text) 0 text.toList :=
  ⟨[], by rw [toList_encode]; rfl, rfl⟩

theorem Before.left (place : Before input cursor cs) :
    Window.left ⟨input, input.size⟩ cursor = (encodeAll cs).length := by
  rw [Window.left, place.size, Nat.add_sub_cancel_left]

theorem Before.nil_iff (place : Before input cursor cs) : cs = [] ↔ cursor = input.size := by
  have size := place.size
  have length := length_le_encodeAll cs
  constructor
  · rintro rfl
    exact size.symm
  · intro atEnd
    exact List.length_eq_zero_iff.mp (by omega)

theorem Before.lt (place : Before input cursor cs) (place' : Before input next rest)
    (suffix : rest <:+ cs) (shorter : rest.length < cs.length) : cursor < next := by
  obtain ⟨front, rfl⟩ := suffix
  have size := place.size
  have size' := place'.size
  have length := length_le_encodeAll front
  rw [encodeAll_append, List.length_append] at size
  rw [List.length_append] at shorter
  omega

theorem Before.skip {front : List Char} (place : Before input cursor (front ++ rest)) :
    Before input (cursor + (encodeAll front).length) rest := by
  obtain ⟨before, whole, rfl⟩ := place
  refine ⟨before ++ encodeAll front, ?_, List.length_append⟩
  rw [whole, encodeAll_append, List.append_assoc]

theorem Before.cons {c : Char} (place : Before input cursor (c :: rest)) :
    Before input (cursor + (String.utf8EncodeChar c).length) rest := by
  have later : Before input (cursor + (encodeAll [c]).length) rest := place.skip
  rwa [encodeAll, List.flatMap_singleton] at later

theorem Before.tail {c : Char} (place : Before input cursor (c :: rest)) (ascii : c.toNat < 128) :
    Before input (cursor + 1) rest := by
  have later := place.cons
  rwa [encode_ascii ascii] at later

theorem Before.drop {front : List Char} (place : Before input cursor (front ++ rest))
    (ascii : ∀ c ∈ front, c.toNat < 128) : Before input (cursor + front.length) rest := by
  have later := place.skip
  rwa [encodeAll_ascii ascii, bytes, List.length_map] at later

theorem Before.extract {front : List Char} (place : Before input cursor (front ++ rest))
    (place' : Before input next rest) :
    next ≤ input.size ∧ (input.extract cursor next).toList = encodeAll front := by
  have size := place.size
  have size' := place'.size
  rw [encodeAll_append, List.length_append] at size
  refine ⟨by omega, ?_⟩
  have stop : next = cursor + (encodeAll front).length := by omega
  obtain ⟨before, whole, length⟩ := place
  rw [encodeAll_append] at whole
  rw [Array.toList_extract, List.extract_eq_take_drop, whole, stop, ← length, List.drop_left,
    Nat.add_sub_cancel_left, List.take_left]

theorem peek_of_toList {front back : List UInt8} {b : UInt8}
    (whole : input.toList = front ++ b :: back) :
    Window.peek? ⟨input, input.size⟩ front.length = some b := by
  have inside : front.length < input.size := by
    rw [← Array.length_toList, whole, List.length_append, List.length_cons]
    omega
  rw [Window.peek?, if_pos inside, ← Array.getElem?_toList, whole]
  simp

theorem Before.peek_nil (place : Before input cursor []) :
    Window.peek? ⟨input, input.size⟩ cursor = none := by
  have atEnd := place.nil_iff.mp rfl
  rw [Window.peek?, if_neg (by simp [atEnd])]

/-! ## Scanning readings -/

/-- A reading matches where a scanner takes characters and fails where it refuses. -/
inductive Mirrors {τ : Type} (input : Array UInt8) (cs : List Char) :
    Except Fault (Outcome τ) → Option (List Char) → Prop where
  | matched {next : Nat} {trees : List (MarkedTree τ)} {stored : List Backref} {rest : List Char}
      (place : Before input next rest) (suffix : rest <:+ cs) :
      Mirrors input cs (.ok (.matched next trees stored)) (some rest)
  | failed {offset : Nat} : Mirrors input cs (.ok (.failed offset)) none

/-- The reading does on the encoding of fewer than `bound` characters what the scanner does. -/
def Reading.Scans {τ : Type} (input : Array UInt8) (bound : Nat) (reading : Reading τ)
    (scanner : Scanner) : Prop :=
  ∀ refs cursor cs, Before input cursor cs → cs.length < bound →
    Mirrors input cs (reading refs cursor) (scanner cs)

variable {τ : Type} {bound : Nat}

theorem Mirrors.cases {answer : Except Fault (Outcome τ)} {taken : Option (List Char)}
    (mirrors : Mirrors input cs answer taken) :
    (∃ next trees stored rest, answer = .ok (.matched next trees stored) ∧ taken = some rest ∧
      Before input next rest ∧ rest <:+ cs) ∨
    ∃ offset, answer = .ok (.failed offset) ∧ taken = none := by
  cases mirrors with
  | matched place suffix => exact .inl ⟨_, _, _, _, rfl, rfl, place, suffix⟩
  | failed => exact .inr ⟨_, rfl, rfl⟩

theorem Mirrors.of_suffix {answer : Except Fault (Outcome τ)} {taken : Option (List Char)}
    (mirrors : Mirrors input rest answer taken) (suffix : rest <:+ cs) :
    Mirrors input cs answer taken := by
  cases mirrors with
  | matched place inner => exact .matched place (inner.trans suffix)
  | failed => exact .failed

theorem Mirrors.resume {second : Reading τ} {refs stored : List Backref}
    {trees : List (MarkedTree τ)} {taken : Option (List Char)}
    (mirrors : Mirrors input cs (second (refs ++ stored) next) taken) :
    Mirrors input cs (second.resume refs next trees stored) taken := by
  unfold Reading.resume
  rcases mirrors.cases with ⟨next', trees', stored', rest', found, rfl, place, suffix⟩ |
    ⟨offset, found, rfl⟩
  · rw [found]
    exact .matched place suffix
  · rw [found]
    exact .failed

namespace Reading

variable {reading first second : Reading τ} {scanner scanner' : Scanner}

theorem scans_succeed : (succeed : Reading τ).Scans input bound Scanner.succeed := by
  intro refs cursor cs place _
  exact .matched place List.suffix_rfl

theorem Scans.andThen_within {bound' : Nat} (scans : first.Scans input bound scanner)
    (scans' : second.Scans input bound' scanner')
    (shrinks : ∀ cs rest, cs.length < bound → scanner cs = some rest → rest <:+ cs →
      rest.length < bound') :
    (first.andThen second).Scans input bound (scanner.andThen scanner') := by
  intro refs cursor cs place short
  unfold Reading.andThen Scanner.andThen
  rcases (scans refs cursor cs place short).cases with
    ⟨next, trees, stored, rest, found, taken, place', suffix⟩ | ⟨offset, found, taken⟩
  · rw [found, taken]
    have later := scans' (refs ++ stored) next rest place' (shrinks cs rest short taken suffix)
    exact (later.of_suffix suffix).resume
  · rw [found, taken]
    exact .failed

theorem Scans.andThen (scans : first.Scans input bound scanner)
    (scans' : second.Scans input bound scanner') :
    (first.andThen second).Scans input bound (scanner.andThen scanner') := by
  refine scans.andThen_within scans' ?_
  intro cs rest short _ suffix
  exact Nat.lt_of_le_of_lt suffix.length_le short

theorem Scans.sequence {readings : List (Reading τ)} {scanners : List Scanner}
    (scans : List.Forall₂ (Scans input bound) readings scanners) :
    (sequence readings).Scans input bound (Scanner.sequence scanners) := by
  induction scans with
  | nil => exact scans_succeed
  | cons here _ ih => exact here.andThen ih

theorem firstOf_mirrors {readings : List (Reading τ)} {scanners : List Scanner}
    {refs : List Backref}
    (mirrors : List.Forall₂ (fun reading scanner => Mirrors input cs (reading refs cursor)
      (scanner cs)) readings scanners) (offset : Nat) :
    Mirrors input cs (firstOf offset readings refs cursor) (Scanner.choice scanners cs) := by
  induction mirrors generalizing offset with
  | nil => exact .failed
  | cons here _ ih =>
      unfold Reading.firstOf Scanner.choice
      rcases here.cases with
        ⟨next, trees, stored, rest, found, taken, place', suffix⟩ | ⟨furthest, found, taken⟩
      · rw [found, taken]
        exact .matched place' suffix
      · rw [found, taken]
        exact ih (max offset furthest)

theorem Scans.choice {readings : List (Reading τ)} {scanners : List Scanner}
    (scans : List.Forall₂ (Scans input bound) readings scanners) :
    (choice readings).Scans input bound (Scanner.choice scanners) := by
  intro refs cursor cs place short
  exact firstOf_mirrors (scans.imp fun _ _ here => here refs cursor cs place short) cursor

theorem Scans.optional (scans : reading.Scans input bound scanner) :
    reading.optional.Scans input bound scanner.optional := by
  intro refs cursor cs place short
  unfold Reading.optional Scanner.optional
  rcases (scans refs cursor cs place short).cases with
    ⟨next, trees, stored, rest, found, taken, place', suffix⟩ | ⟨offset, found, taken⟩
  · rw [found, taken]
    exact .matched place' suffix
  · rw [found, taken]
    exact .matched place List.suffix_rfl

theorem Scans.building (scans : reading.Scans input bound scanner)
    (change : Nat → Nat → List (MarkedTree τ) → List (MarkedTree τ)) :
    (reading.building change).Scans input bound scanner := by
  intro refs cursor cs place short
  unfold Reading.building
  rcases (scans refs cursor cs place short).cases with
    ⟨next, trees, stored, rest, found, taken, place', suffix⟩ | ⟨offset, found, taken⟩
  · rw [found, taken]
    exact .matched place' suffix
  · rw [found, taken]
    exact .failed

theorem Scans.times (scans : reading.Scans input bound scanner) (count : Nat) :
    (reading.times count).Scans input bound (scanner.times count) := by
  induction count with
  | zero => exact scans_succeed
  | succ count ih => exact scans.andThen ih

/-! ## Loops -/

theorem greedy_mirrors {last : Reading τ} {rounds : Nat} {refs : List Backref}
    (place : Before input cursor cs) (mirrors : Mirrors input cs (reading refs cursor) (scanner cs))
    (later : ∀ refs next rest, Before input next rest → rest.length < cs.length → cursor < next →
      Mirrors input rest (reading.greedy last rounds refs next) (scanner.star rest)) :
    Mirrors input cs (reading.greedy last (rounds + 1) refs cursor) (scanner.star cs) := by
  unfold Reading.greedy
  rcases mirrors.cases with
    ⟨next, trees, stored, rest, found, taken, place', suffix⟩ | ⟨offset, found, taken⟩
  · by_cases shorter : rest.length < cs.length
    · have moved := place.lt place' suffix shorter
      have others := later (refs ++ stored) next rest place' shorter moved
      rw [found, Scanner.star_of_some taken shorter]
      simp only [Fault.ok_bind, if_neg (Nat.ne_of_gt moved)]
      exact (others.of_suffix suffix).resume
    · have same : rest = cs := suffix.eq_of_length_le (by omega)
      have stayed : next = cursor := by
        have size := place.size
        have size' := place'.size
        rw [same] at size'
        omega
      rw [found, Scanner.star, taken]
      simp only [Fault.ok_bind, if_pos stayed, if_neg shorter]
      exact .matched place' suffix
  · rw [found, Scanner.star_of_none taken]
    exact .matched place List.suffix_rfl

theorem greedy_scans {last : Reading τ} (scans : reading.Scans input bound scanner) (rounds : Nat)
    (refs : List Backref) (cursor : Nat) (cs : List Char) (place : Before input cursor cs)
    (short : cs.length < bound) (enough : cs.length < rounds) :
    Mirrors input cs (reading.greedy last rounds refs cursor) (scanner.star cs) := by
  induction rounds generalizing refs cursor cs with
  | zero => cases enough
  | succ rounds ih =>
      refine greedy_mirrors place (scans refs cursor cs place short) ?_
      intro refs next rest place' shorter _
      exact ih refs next rest place' (by omega) (by omega)

/-- The loop of a repetition, with one round more than there are bytes left. -/
def repeated (input : Array UInt8) (reading : Reading τ) : Reading τ := fun refs cursor =>
  reading.greedy (.stop .exhausted) (Window.left ⟨input, input.size⟩ cursor + 1) refs cursor

theorem Scans.repeated (scans : reading.Scans input bound scanner) :
    (reading.repeated input).Scans input bound scanner.star := by
  intro refs cursor cs place short
  have length := length_le_encodeAll cs
  exact greedy_scans scans _ refs cursor cs place short (by rw [place.left]; omega)

theorem Scans.plus (scans : reading.Scans input bound scanner)
    (shrinks : ∀ cs rest, scanner cs = some rest → rest.length < cs.length) :
    (reading.thenIfMoved (reading.repeated input)).Scans input bound scanner.plus := by
  intro refs cursor cs place short
  unfold Reading.thenIfMoved Scanner.plus Scanner.andThen
  rcases (scans refs cursor cs place short).cases with
    ⟨next, trees, stored, rest, found, taken, place', suffix⟩ | ⟨offset, found, taken⟩
  · have shorter := shrinks cs rest taken
    have moved := place.lt place' suffix shorter
    have later := scans.repeated (refs ++ stored) next rest place' (by omega)
    rw [found, taken]
    simp only [Fault.ok_bind, if_neg (Nat.ne_of_gt moved)]
    exact (later.of_suffix suffix).resume
  · rw [found, taken]
    exact .failed

/-! ## Single characters -/

/-- A class of bytes stands for a test of characters: they agree on ASCII, and neither says yes to
anything else. -/
structure Spells (kind : AtomClass UInt8) (test : Char → Bool) : Prop where
  ascii : ∀ c, c.toNat < 128 → kind.test .natural (byte c) = .ok (test c)
  high : ∀ b : UInt8, 128 ≤ b.toNat → kind.test .natural b = .ok false
  wide : ∀ c, 128 ≤ c.toNat → test c = false

theorem natural_same (a b : UInt8) : Comparator.same .natural a b = decide (a = b) := by
  rw [Bool.eq_iff_iff]
  simp [Comparator.same, Comparator.natural]

theorem natural_gt {a b : UInt8} : Comparator.natural a b = .gt ↔ b.toNat < a.toNat := by
  rw [Comparator.natural, Std.compare_eq_gt, UInt8.lt_iff_toNat_lt]

theorem toNat_byte {c : Char} (ascii : c.toNat < 128) : (byte c).toNat = c.toNat := by
  rw [byte, UInt8.toNat_ofNat']
  omega

theorem byte_inj {c d : Char} (ascii : c.toNat < 128) (ascii' : d.toNat < 128) :
    byte c = byte d ↔ c = d := by
  rw [← UInt8.toNat_inj, toNat_byte ascii, toNat_byte ascii', Char.toNat_inj]

theorem spells_among {set : List Char} (ascii : set.all (·.toNat < 128)) :
    Spells (.among (bytes set)) (Json.Syntax.among set) := by
  simp only [List.all_eq_true, decide_eq_true_eq] at ascii
  refine ⟨?_, ?_, ?_⟩
  · intro c small
    rw [AtomClass.test, Except.ok.injEq, Bool.eq_iff_iff]
    simp only [bytes, List.any_map, List.any_eq_true, Function.comp, natural_same,
      decide_eq_true_eq, Json.Syntax.among, List.contains_iff_mem]
    constructor
    · rintro ⟨d, member, same⟩
      rwa [(byte_inj small (ascii d member)).mp same]
    · intro member
      exact ⟨c, member, rfl⟩
  · intro b high
    rw [AtomClass.test, Except.ok.injEq, List.any_eq_false]
    intro other member
    obtain ⟨d, listed, rfl⟩ := List.mem_map.mp member
    have small := ascii d listed
    rw [natural_same, decide_eq_true_eq]
    rintro rfl
    rw [toNat_byte small] at high
    omega
  · intro c wide
    rw [← Bool.not_eq_true, Json.Syntax.among, List.contains_iff_mem]
    intro member
    have small := ascii c member
    omega

theorem spells_exactly {d : Char} (ascii : d.toNat < 128) :
    Spells (.exactly (byte d)) (Json.Syntax.among [d]) := by
  have listed : Spells (.among (bytes [d])) (Json.Syntax.among [d]) :=
    spells_among (by simpa using ascii)
  have same : ∀ b, (AtomClass.exactly (byte d)).test .natural b =
      (AtomClass.among (bytes [d])).test .natural b := by
    intro b
    simp [AtomClass.test, bytes]
  exact ⟨fun c small => (same _).trans (listed.ascii c small),
    fun b high => (same b).trans (listed.high b high), listed.wide⟩

theorem isDigit_of_within {c : Char} (digit : Json.Syntax.within '0' '9' c = true) :
    isDigit (byte c) = true := by
  obtain ⟨above, below⟩ := Json.Syntax.within_iff.mp digit
  have value : (byte c).toNat = c.toNat := toNat_byte (Nat.lt_of_le_of_lt below (by decide))
  simp only [isDigit, Bool.and_eq_true, decide_eq_true_eq, UInt8.le_iff_toNat_le, value]
  exact ⟨above, below⟩

theorem spells_within {low high : Char} (forward : low.toNat ≤ high.toNat)
    (ascii : high.toNat < 128) :
    Spells (.within (byte low) (byte high)) (Json.Syntax.within low high) := by
  have lower := toNat_byte (show low.toNat < 128 by omega)
  have upper := toNat_byte ascii
  have nonempty : ¬Comparator.natural (byte low) (byte high) = .gt := by
    rw [natural_gt, lower, upper]
    omega
  have inside : ∀ b : UInt8, Comparator.between .natural (byte low) (byte high) b = true ↔
      low.toNat ≤ b.toNat ∧ b.toNat ≤ high.toNat := by
    intro b
    rw [Comparator.between, Bool.and_eq_true, bne_iff_ne, bne_iff_ne, ne_eq, ne_eq, natural_gt,
      natural_gt, lower, upper]
    omega
  refine ⟨?_, ?_, ?_⟩
  · intro c small
    rw [AtomClass.test, if_neg nonempty, Except.ok.injEq, Bool.eq_iff_iff, inside,
      Json.Syntax.within_iff, toNat_byte small]
  · intro b high
    rw [AtomClass.test, if_neg nonempty, Except.ok.injEq, ← Bool.not_eq_true, inside]
    omega
  · intro c wide
    rw [← Bool.not_eq_true, Json.Syntax.within_iff]
    omega

theorem one_mirrors {test : UInt8 → Except Fault Bool} {test' : Char → Bool} {refs : List Backref}
    (agree : ∀ c, c.toNat < 128 → test (byte c) = .ok (test' c)) (place : Before input cursor cs)
    (narrow : Scanner.Next (·.toNat < 128) cs) :
    Mirrors (τ := τ) input cs (one ⟨input, input.size⟩ test refs cursor)
      (Scanner.one test' cs) := by
  cases cs with
  | nil =>
      rw [one_of_end place.peek_nil]
      exact .failed
  | cons c rest =>
      have ascii := Scanner.next_cons.mp narrow
      have later := place.cons
      obtain ⟨front, whole, rfl⟩ := place
      rw [encode_ascii ascii] at later
      rw [encodeAll_cons, encode_ascii ascii] at whole
      rw [one_of_peek (peek_of_toList whole) (agree c ascii), Scanner.one]
      cases test' c with
      | true => exact .matched later (List.suffix_cons c rest)
      | false => exact .failed

theorem one_taken {kind : AtomClass UInt8} {test : Char → Bool} (spells : Spells kind test) {c : Char}
    (place : Before input cursor (c :: rest)) (passed : test c = true) (refs : List Backref) :
    (one ⟨input, input.size⟩ (kind.test .natural) : Reading τ) refs cursor =
        .ok (.matched (cursor + 1) [] []) ∧
      Before input (cursor + 1) rest := by
  have ascii : c.toNat < 128 := by
    by_contra wide
    have refused := spells.wide c (by omega)
    rw [passed] at refused
    cases refused
  have later := place.tail ascii
  obtain ⟨front, whole, rfl⟩ := place
  rw [encodeAll_cons, encode_ascii ascii] at whole
  have found := one_of_peek (τ := τ) (peek_of_toList whole) (spells.ascii c ascii) refs
  rw [passed] at found
  exact ⟨found, later⟩

theorem one_refused {kind : AtomClass UInt8} {test : Char → Bool} (spells : Spells kind test)
    (place : Before input cursor cs) (wrong : Scanner.Next (fun c => test c = false) cs)
    (refs : List Backref) :
    (one ⟨input, input.size⟩ (kind.test .natural) : Reading τ) refs cursor = .ok (.failed cursor) := by
  cases cs with
  | nil => exact one_of_end place.peek_nil refs
  | cons c rest =>
      have refused := Scanner.next_cons.mp wrong
      obtain ⟨front, whole, rfl⟩ := place
      by_cases ascii : c.toNat < 128
      · rw [encodeAll_cons, encode_ascii ascii] at whole
        have found := one_of_peek (τ := τ) (peek_of_toList whole) (spells.ascii c ascii) refs
        rwa [refused] at found
      · obtain ⟨b, tail, bytes⟩ := List.exists_cons_of_ne_nil (String.utf8EncodeChar_ne_nil (c := c))
        have high := encode_wide (Nat.le_of_not_lt ascii) b (by simp [bytes])
        rw [encodeAll_cons, bytes, List.cons_append] at whole
        exact one_of_peek (peek_of_toList whole) (spells.high b high) refs

theorem exactly_taken {mark : Char} (ascii : mark.toNat < 128)
    (place : Before input cursor (mark :: rest)) (refs : List Backref) :
    (one ⟨input, input.size⟩ ((AtomClass.exactly (byte mark)).test .natural) : Reading τ) refs
        cursor = .ok (.matched (cursor + 1) [] []) ∧
      Before input (cursor + 1) rest :=
  one_taken (spells_exactly ascii) place (by simp [Json.Syntax.among]) refs

theorem exactly_refused {mark : Char} (ascii : mark.toNat < 128) (place : Before input cursor cs)
    (other : Scanner.Next (· ≠ mark) cs) (refs : List Backref) :
    (one ⟨input, input.size⟩ ((AtomClass.exactly (byte mark)).test .natural) : Reading τ) refs
      cursor = .ok (.failed cursor) := by
  apply one_refused (spells_exactly ascii) place
  cases cs with
  | nil => exact Scanner.next_nil _
  | cons c rest =>
      rw [Scanner.next_cons] at other ⊢
      simpa [Json.Syntax.among] using other

theorem scans_one {kind : AtomClass UInt8} {test : Char → Bool} (spells : Spells kind test) :
    (one ⟨input, input.size⟩ (kind.test .natural) : Reading τ).Scans input bound
      (Scanner.one test) := by
  intro refs cursor cs place _
  by_cases wrong : Scanner.Next (fun c => test c = false) cs
  · rw [one_refused spells place wrong, Scanner.one_refused wrong]
    exact .failed
  · obtain ⟨c, rest, rfl, right⟩ := Scanner.exists_of_not_next wrong
    have passed : test c = true := Bool.eq_true_of_not_eq_false right
    obtain ⟨found, later⟩ := one_taken spells place passed refs
    rw [found, Scanner.one, if_pos passed]
    exact .matched later (List.suffix_cons c rest)

section Runs

variable {kind : AtomClass UInt8} {test : Char → Bool} {front : List Char}

/-- All characters are taken that pass the test, one in each round. -/
theorem greedy_taken (spells : Spells kind test) {last : Reading τ} {rounds : Nat}
    (place : Before input cursor (front ++ rest)) (passed : ∀ c ∈ front, test c = true)
    (ended : Scanner.Next (fun c => test c = false) rest) (enough : front.length < rounds)
    (refs : List Backref) :
    (one ⟨input, input.size⟩ (kind.test .natural) : Reading τ).greedy last rounds refs cursor =
      .ok (.matched (cursor + front.length) [] []) := by
  induction front generalizing cursor rounds with
  | nil =>
      obtain ⟨rounds, rfl⟩ := Nat.exists_eq_add_one_of_ne_zero (Nat.ne_zero_of_lt enough)
      simp only [Reading.greedy, one_refused spells place ended refs, Fault.ok_bind,
        Fault.pure_eq_ok, List.length_nil, Nat.add_zero]
  | cons c front ih =>
      obtain ⟨rounds, rfl⟩ := Nat.exists_eq_add_one_of_ne_zero (Nat.ne_zero_of_lt enough)
      rw [List.forall_mem_cons] at passed
      obtain ⟨found, place'⟩ := one_taken (τ := τ) spells place passed.1 refs
      have later := ih place' passed.2 (Nat.lt_of_succ_lt_succ enough)
      simp only [Reading.greedy, found, Fault.ok_bind, if_neg (Nat.succ_ne_self cursor), resume_nil]
      rw [later, List.length_cons, Nat.add_assoc, Nat.add_comm 1]

theorem repeated_taken (spells : Spells kind test) (place : Before input cursor (front ++ rest))
    (passed : ∀ c ∈ front, test c = true) (ended : Scanner.Next (fun c => test c = false) rest)
    (refs : List Backref) :
    (one ⟨input, input.size⟩ (kind.test .natural) : Reading τ).repeated input refs cursor =
      .ok (.matched (cursor + front.length) [] []) := by
  have length := length_le_encodeAll (front ++ rest)
  rw [List.length_append] at length
  exact greedy_taken spells place passed ended (by rw [place.left]; omega) refs

theorem plus_taken (spells : Spells kind test) (place : Before input cursor (front ++ rest))
    (nonempty : front ≠ []) (passed : ∀ c ∈ front, test c = true)
    (ended : Scanner.Next (fun c => test c = false) rest) (refs : List Backref) :
    (one ⟨input, input.size⟩ (kind.test .natural) : Reading τ).thenIfMoved
        ((one ⟨input, input.size⟩ (kind.test .natural)).repeated input) refs cursor =
      .ok (.matched (cursor + front.length) [] []) := by
  obtain ⟨c, front, rfl⟩ := List.exists_cons_of_ne_nil nonempty
  rw [List.forall_mem_cons] at passed
  obtain ⟨found, place'⟩ := one_taken (τ := τ) spells place passed.1 refs
  simp only [Reading.thenIfMoved, found, Fault.ok_bind, if_neg (Nat.succ_ne_self cursor), resume_nil]
  rw [repeated_taken spells place' passed.2 ended, List.length_cons, Nat.add_assoc, Nat.add_comm 1]

theorem plus_refused (spells : Spells kind test) (place : Before input cursor cs)
    (wrong : Scanner.Next (fun c => test c = false) cs) (second : Reading τ) (refs : List Backref) :
    (one ⟨input, input.size⟩ (kind.test .natural) : Reading τ).thenIfMoved second refs cursor =
      .ok (.failed cursor) := by
  simp only [Reading.thenIfMoved, one_refused spells place wrong refs, Fault.ok_bind,
    Fault.pure_eq_ok]

end Runs

theorem literal_cons {α : Type} [Atom α] (order : Comparator α) (window : Window α) (expected : α)
    (tail : List α) : (literal order window (expected :: tail) : Reading τ) =
      (one window ((AtomClass.exactly expected).test order)).andThen (literal order window tail) := by
  funext refs cursor
  unfold Reading.andThen
  conv_lhs => unfold Reading.literal
  cases peeked : window.peek? cursor with
  | none =>
      rw [one_of_end peeked]
      rfl
  | some a =>
      have tested : (AtomClass.exactly expected).test order a = .ok (order.same a expected) := rfl
      rw [one_of_peek peeked tested]
      dsimp only
      cases order.same a expected with
      | true => exact (resume_nil _ refs (cursor + 1)).symm
      | false => rfl

theorem literal_singleton {α : Type} [Atom α] (order : Comparator α) (window : Window α)
    (atom : α) : (literal order window [atom] : Reading τ) =
      one window ((AtomClass.exactly atom).test order) := by
  rw [literal_cons]
  exact andThen_succeed _

theorem scans_literal {word : List Char} (ascii : word.all (·.toNat < 128)) :
    (literal .natural ⟨input, input.size⟩ (bytes word) : Reading τ).Scans input bound
      (Scanner.literal word) := by
  induction word with
  | nil => exact scans_succeed
  | cons expected tail ih =>
      rw [List.all_cons, Bool.and_eq_true, decide_eq_true_eq] at ascii
      rw [bytes, List.map_cons, literal_cons]
      exact (scans_one (spells_exactly ascii.1)).andThen (ih ascii.2)

/-! ## Characters outside ASCII, byte by byte -/

/-- The reading takes every byte outside ASCII, one at a time. -/
def Creeps (input : Array UInt8) (reading : Reading τ) : Prop :=
  ∀ refs cursor b, Window.peek? ⟨input, input.size⟩ cursor = some b → 128 ≤ b.toNat →
    reading refs cursor = .ok (.matched (cursor + 1) [] [])

theorem Creeps.greedy {last : Reading τ} (creeps : reading.Creeps input) {front high back : List UInt8}
    (whole : input.toList = front ++ (high ++ back)) (wide : ∀ b ∈ high, 128 ≤ b.toNat)
    (rounds : Nat) (refs : List Backref) :
    reading.greedy last (high.length + rounds) refs front.length =
      reading.greedy last rounds refs (front.length + high.length) := by
  induction high generalizing front with
  | nil => rw [List.length_nil, Nat.zero_add, Nat.add_zero]
  | cons b high ih =>
      rw [List.forall_mem_cons] at wide
      have here := creeps refs front.length b (peek_of_toList whole) wide.1
      have whole' : input.toList = front ++ [b] ++ (high ++ back) := by simpa using whole
      have later := ih whole' wide.2
      rw [List.length_append, List.length_singleton] at later
      rw [List.length_cons, Nat.add_right_comm]
      simp only [Reading.greedy, here, Fault.ok_bind, if_neg (Nat.succ_ne_self front.length),
        resume_nil]
      rw [later, Nat.add_assoc, Nat.add_comm 1]

/-- Rounds that take single bytes of a character take the character together. -/
theorem Creeps.greedy_scans {last : Reading τ} (creeps : reading.Creeps input)
    (wide : ∀ c rest, 128 ≤ c.toNat → scanner (c :: rest) = some rest)
    (narrow : ∀ refs cursor cs, Before input cursor cs → cs.length < bound →
      Scanner.Next (·.toNat < 128) cs → Mirrors input cs (reading refs cursor) (scanner cs))
    (rounds : Nat) (refs : List Backref) (cursor : Nat) (cs : List Char)
    (place : Before input cursor cs) (short : cs.length < bound)
    (enough : (encodeAll cs).length < rounds) :
    Mirrors input cs (reading.greedy last rounds refs cursor) (scanner.star cs) := by
  induction rounds using Nat.strong_induction_on generalizing refs cursor cs with
  | _ rounds ih =>
      by_cases ascii : Scanner.Next (·.toNat < 128) cs
      · obtain ⟨rounds, rfl⟩ := Nat.exists_eq_add_one_of_ne_zero (Nat.ne_zero_of_lt enough)
        refine greedy_mirrors place (narrow refs cursor cs place short ascii) ?_
        intro refs next rest place' shorter moved
        have size := place.size
        have size' := place'.size
        exact ih rounds (by omega) refs next rest place' (by omega) (by omega)
      · obtain ⟨c, rest, rfl, wide_char⟩ := Scanner.exists_of_not_next ascii
        have high : 128 ≤ c.toNat := Nat.le_of_not_lt wide_char
        have later := place.cons
        obtain ⟨front, whole, rfl⟩ := place
        rw [encodeAll_cons] at whole
        rw [encodeAll_cons, List.length_append] at enough
        rw [List.length_cons] at short
        have positive := List.length_pos_iff.mpr (String.utf8EncodeChar_ne_nil (c := c))
        obtain ⟨left, rfl⟩ := Nat.exists_eq_add_of_le
          (show (String.utf8EncodeChar c).length ≤ rounds by omega)
        rw [creeps.greedy whole (encode_wide high), Scanner.star_of_some (wide c rest high) (by simp)]
        exact (ih left (by omega) refs _ rest later (by omega) (by omega)).of_suffix
          (List.suffix_cons c rest)

theorem Creeps.repeated (creeps : reading.Creeps input)
    (wide : ∀ c rest, 128 ≤ c.toNat → scanner (c :: rest) = some rest)
    (narrow : ∀ refs cursor cs, Before input cursor cs → cs.length < bound →
      Scanner.Next (·.toNat < 128) cs → Mirrors input cs (reading refs cursor) (scanner cs)) :
    (reading.repeated input).Scans input bound scanner.star := by
  intro refs cursor cs place short
  exact creeps.greedy_scans wide narrow _ refs cursor cs place short (by rw [place.left]; omega)

end Reading

end PegForest
