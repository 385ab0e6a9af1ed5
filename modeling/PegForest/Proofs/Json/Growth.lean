import PegForest.Proofs.Json.Recognize
import PegForest.Proofs.Json.Shown
import PegForest.Proofs.Reading.Grow

/-!
# Trees of phrases

Where the text of a phrase stands with blanks around it, the matcher of its symbol takes the text
and the blanks, and the trees that it builds show what the phrase denotes.  There is a node for each
value, for each member and for each key of the phrase and no other one: the alternatives that are
tried first all fail at the first character.

The induction is on the phrase.  The blanks of a structural character go to its neighbours, so what
holds of a phrase is said for any blanks around it.
-/

set_option autoImplicit false

namespace PegForest.Json

open Text.Ascii
open MarkedTree
open Reading (Grows GrowsAll OneGrows Leaf Branch Barren Refuses barren_one barren_literal
  barren_notAhead)
open Scanner (Next next_cons)
open scoped Computability

variable {input : Array UInt8} {call : Rule → Reading Tag} {depth : Nat} {rest w : List Char}
  {shown : List (MarkedTree Tag) → Prop} {trees : List (MarkedTree Tag)}

/-! ## Matchers without nodes inside -/

theorem barren_blanks : (readingOn input call blanks).Barren :=
  Barren.repeated (barren_one _ _)

theorem barren_digit : (readingOn input call digit).Barren :=
  barren_one _ _

theorem barren_digits : (readingOn input call (.plus digit)).Barren :=
  barren_digit.thenIfMoved barren_digit.repeated

theorem barren_hexDigit : (readingOn input call hexDigit).Barren := by
  apply Barren.choice
  simp only [Matcher.readings, List.forall_mem_cons]
  exact ⟨barren_one _ _, barren_one _ _, barren_one _ _, List.forall_mem_nil _⟩

theorem barren_escape : (readingOn input call escape).Barren := by
  have numbered : (readingOn input call (.seq [.atom (byte 'u'), .times 4 hexDigit])).Barren := by
    apply Barren.sequence
    simp only [Matcher.readings, List.forall_mem_cons]
    exact ⟨barren_one _ _, barren_hexDigit.times 4, List.forall_mem_nil _⟩
  apply Barren.sequence
  simp only [Matcher.readings, List.forall_mem_cons]
  refine ⟨barren_one _ _, ?_, List.forall_mem_nil _⟩
  apply Barren.choice
  simp only [Matcher.readings, List.forall_mem_cons]
  exact ⟨barren_one _ _, numbered, List.forall_mem_nil _⟩

theorem barren_unescaped : (readingOn input call unescaped).Barren := by
  apply Barren.sequence
  simp only [Matcher.readings, List.forall_mem_cons]
  exact ⟨barren_notAhead _, barren_one _ _, List.forall_mem_nil _⟩

theorem barren_characters :
    (readingOn input call (.seq [.atom (byte '"'), .star (.choice [escape, unescaped]),
      .atom (byte '"')])).Barren := by
  have character : (readingOn input call (.choice [escape, unescaped])).Barren := by
    apply Barren.choice
    simp only [Matcher.readings, List.forall_mem_cons]
    exact ⟨barren_escape, barren_unescaped, List.forall_mem_nil _⟩
  apply Barren.sequence
  simp only [Matcher.readings, List.forall_mem_cons]
  exact ⟨barren_one _ _, character.repeated, barren_one _ _, List.forall_mem_nil _⟩

theorem barren_integer : (readingOn input call integer).Barren := by
  have positive :
      (readingOn input call (.seq [.range (byte '1') (byte '9'), .star digit])).Barren := by
    apply Barren.sequence
    simp only [Matcher.readings, List.forall_mem_cons]
    exact ⟨barren_one _ _, barren_digit.repeated, List.forall_mem_nil _⟩
  apply Barren.choice
  simp only [Matcher.readings, List.forall_mem_cons]
  exact ⟨barren_one _ _, positive, List.forall_mem_nil _⟩

theorem barren_fraction : (readingOn input call fraction).Barren := by
  apply Barren.optional
  apply Barren.sequence
  simp only [Matcher.readings, List.forall_mem_cons]
  exact ⟨barren_one _ _, barren_digits, List.forall_mem_nil _⟩

theorem barren_exponent : (readingOn input call exponent).Barren := by
  apply Barren.optional
  apply Barren.sequence
  simp only [Matcher.readings, List.forall_mem_cons]
  exact ⟨barren_one _ _, (barren_one _ _).optional, barren_digits, List.forall_mem_nil _⟩

theorem barren_letters :
    (readingOn input call
      (.seq [.opt (.atom (byte '-')), integer, fraction, exponent])).Barren := by
  apply Barren.sequence
  simp only [Matcher.readings, List.forall_mem_cons]
  exact ⟨(barren_one _ _).optional, barren_integer, barren_fraction, barren_exponent,
    List.forall_mem_nil _⟩

/-! ## Words without nodes inside -/

def Visible (cs : List Char) : Prop :=
  Next (fun c => Syntax.among [' ', '\t', '\n', '\r'] c = false) cs

theorem blanks_grow (call : Rule → Reading Tag) (blank : w ∈ Syntax.ws) (visible : Visible rest) :
    (readingOn input call blanks).Grows input w rest (· = []) :=
  .of_scans barren_blanks scans_blanks (Nat.lt_succ_self _)
    (Scan.takes_blanks w blank rest visible (Nat.lt_succ_self _))

theorem mark_grows (call : Rule → Reading Tag) (mark : Char) (ascii : mark.toNat < 128)
    (rest : List Char) :
    (readingOn input call (.atom (byte mark))).Grows input [mark] rest (· = []) :=
  .of_scans (barren_one _ _) (scans_atom ascii) (Nat.lt_succ_self _)
    (if_pos (by simp [Syntax.among]))

theorem mark_refuses (call : Rule → Reading Tag) {mark : Char} (ascii : mark.toNat < 128)
    (other : Next (fun c => Syntax.among [mark] c = false) rest) :
    (readingOn input call (.atom (byte mark))).Refuses input rest :=
  .of_scans (scans_atom ascii) (Nat.lt_succ_self _)
    ((Scanner.sound_one _).refuses (Scanner.opens_letter _) other)

theorem word_grows (call : Rule → Reading Tag) (tag : Tag) (word : List Char)
    (ascii : word.all (·.toNat < 128)) (rest : List Char) :
    (readingOn input call (.capture tag (.literal (bytes word)))).Grows input word rest
      (Leaf input tag word) := by
  have scans : (readingOn input call (.capture tag (.literal (bytes word)))).Scans input
    ((word ++ rest).length + 1) (Scanner.literal word) := scans_word tag ascii
  have follows : Next (fun _ => True) rest := fun _ _ => trivial
  exact .leaf (barren_literal _ _ _) tag scans (Nat.lt_succ_self _)
    (Scanner.takes_literal word word rfl rest follows (Nat.lt_succ_self _))

theorem string_grows (input : Array UInt8) (call : Rule → Reading Tag) (pieces : List Piece)
    (rest : List Char) :
    (readingOn input call string).Grows input (Piece.literal pieces) rest
      (Leaf input .string (Piece.literal pieces)) :=
  .leaf barren_characters .string scans_string (Nat.lt_succ_self _)
    (Scan.takes_string _ (mem_string_iff.mpr ⟨pieces, rfl⟩) rest (fun _ _ => trivial)
      (Nat.lt_succ_self _))

theorem number_grows (input : Array UInt8) (call : Rule → Reading Tag) (numeral : Numeral)
    (ended : Next (fun c => Scan.continues c = false) rest) :
    (readingOn input call number).Grows input numeral.letters rest
      (Leaf input .number numeral.letters) :=
  .leaf barren_letters .number scans_number (Nat.lt_succ_self _)
    (Scan.takes_number _ numeral.derived rest ended (Nat.lt_succ_self _))

/-! ## Values -/

abbrev callAt (input : Array UInt8) (depth : Nat) : Rule → Reading Tag :=
  grammar.callReading .natural ⟨input, input.size⟩ depth

def valueAt (input : Array UInt8) (depth : Nat) : Reading Tag :=
  callAt input depth .value

def memberAt (input : Array UInt8) (depth : Nat) : Reading Tag :=
  readingOn input (callAt input depth) (member .value)

def wordsAt (input : Array UInt8) (depth : Nat) : List (Reading Tag) :=
  [readingOn input (callAt input depth) (.capture .true (.literal (bytes ['t', 'r', 'u', 'e']))),
    readingOn input (callAt input depth)
      (.capture .false (.literal (bytes ['f', 'a', 'l', 's', 'e']))),
    readingOn input (callAt input depth) (.capture .null (.literal (bytes ['n', 'u', 'l', 'l'])))]

def coreAt (input : Array UInt8) (depth : Nat) : Reading Tag :=
  .choice (readingOn input (callAt input depth) (object .value) ::
    readingOn input (callAt input depth) (array .value) ::
    readingOn input (callAt input depth) string ::
    readingOn input (callAt input depth) number :: wordsAt input depth)

theorem valueAt_succ (input : Array UInt8) (depth : Nat) :
    valueAt input (depth + 1) =
      (readingOn input (callAt input depth) blanks).andThen
        ((coreAt input depth).andThen (readingOn input (callAt input depth) blanks)) := by
  have last := Reading.andThen_succeed (readingOn input (callAt input depth) blanks)
  exact congrArg (fun last => (readingOn input (callAt input depth) blanks).andThen
    ((coreAt input depth).andThen last)) last

theorem memberAt_eq (input : Array UInt8) (depth : Nat) :
    memberAt input depth =
      ((readingOn input (callAt input depth) blanks).andThen
        ((readingOn input (callAt input depth) string).andThen
          ((readingOn input (callAt input depth) blanks).andThen
            ((readingOn input (callAt input depth) (.atom (byte ':'))).andThen
              (valueAt input depth))))).node (some .member) false := by
  rw [← Reading.andThen_succeed (valueAt input depth)]
  rfl

theorem separated_eq (part : Matcher UInt8 Tag Rule) :
    readingOn input call (separated part) =
      (readingOn input call part).andThen
        (((readingOn input call (.atom (byte ','))).andThen (readingOn input call part)).repeated
          input) := by
  change (readingOn input call part).andThen
    ((((readingOn input call (.atom (byte ','))).andThen
      ((readingOn input call part).andThen .succeed)).repeated input).andThen .succeed) = _
  rw [Reading.andThen_succeed, Reading.andThen_succeed]

/-! ### Alternatives that fail at the first character -/

variable {cs : List Char}

theorem object_refuses (short : cs.length < depth + 1)
    (other : Next (fun c => Syntax.among ['\x7b'] c = false) cs) :
    (readingOn input (callAt input depth) (object .value)).Refuses input cs :=
  .of_scans
    (scans_bracketed .object (by decide) (by decide) (scans_member (scans_call depth .value))) short
    ((Scan.sound_bracketed (Scan.sound_member (Scan.sound_value depth)) _ _).refuses
      (Scan.opens_bracketed _ _ _) other)

theorem array_refuses (short : cs.length < depth + 1)
    (other : Next (fun c => Syntax.among ['['] c = false) cs) :
    (readingOn input (callAt input depth) (array .value)).Refuses input cs :=
  .of_scans (scans_bracketed .array (by decide) (by decide) (scans_call depth .value)) short
    ((Scan.sound_bracketed (Scan.sound_value depth) _ _).refuses (Scan.opens_bracketed _ _ _) other)

theorem string_refuses (other : Next (fun c => Syntax.among ['"'] c = false) cs) :
    (readingOn input call string).Refuses input cs :=
  .of_scans scans_string (Nat.lt_succ_self _) (Scan.sound_string.refuses Scan.opens_string other)

theorem number_refuses (other : Next (fun c => Scan.opensNumber c = false) cs) :
    (readingOn input call number).Refuses input cs :=
  .of_scans scans_number (Nat.lt_succ_self _) (Scan.sound_number.refuses Scan.opens_number other)

theorem word_refuses {c : Char} {tail : List Char} (tag : Tag)
    (ascii : (c :: tail).all (·.toNat < 128))
    (other : Next (fun d => Syntax.among [c] d = false) cs) :
    (readingOn input call (.capture tag (.literal (bytes (c :: tail))))).Refuses input cs := by
  have scans : (readingOn input call (.capture tag (.literal (bytes (c :: tail))))).Scans input
    (cs.length + 1) (Scanner.literal (c :: tail)) := scans_word tag ascii
  exact .of_scans scans (Nat.lt_succ_self _)
    ((Scanner.sound_literal _).refuses (Scan.opens_literal c tail) other)

/-! ### Brackets -/

/-- What stands between brackets. -/
def entriesAt (input : Array UInt8) (call : Rule → Reading Tag) (part : Matcher UInt8 Tag Rule) :
    Reading Tag :=
  readingOn input call (.choice [separated part, blanks])

section Brackets

variable {opening closing : Char} {part : Matcher UInt8 Tag Rule}

theorem bracketed_grows (tag : Tag) (ascii : opening.toNat < 128) (ascii' : closing.toNat < 128)
    (inside : (entriesAt input call part).Grows input w (closing :: rest) shown) :
    (readingOn input call (.capture tag (.seq [.atom (byte opening),
      .choice [separated part, blanks], .atom (byte closing)]))).Grows input
        (opening :: (w ++ [closing])) rest (Branch tag shown) := by
  have closed := inside.ahead (mark_grows call closing ascii' rest)
  have whole := ((mark_grows call opening ascii _).behind closed).node tag
  rwa [← Reading.andThen_succeed (readingOn input call (.atom (byte closing)))] at whole

theorem list_grows (other : Syntax.among [','] closing = false)
    (grows : GrowsAll input (readingOn input call part) [','] (closing :: rest) w shown) :
    (entriesAt input call part).Grows input w (closing :: rest) shown := by
  have list := grows.separated (List.cons_ne_nil _ _) (mark_grows call ',' (by decide))
    (mark_refuses call (by decide) (next_cons.mpr other))
  rw [← separated_eq] at list
  exact (list.here _).choice

theorem nothing_grows (blank : w ∈ Syntax.ws)
    (refuses : (readingOn input call part).Refuses input (w ++ closing :: rest))
    (visible : Visible (closing :: rest)) :
    (entriesAt input call part).Grows input w (closing :: rest) (· = []) := by
  have list : (readingOn input call (separated part)).Refuses input (w ++ closing :: rest) := by
    rw [separated_eq]
    exact refuses.andThen _
  exact (OneGrows.cons list ((blanks_grow call blank visible).here _)).choice

theorem inside_short {v : List Char}
    (short : (opening :: (w ++ [closing]) ++ v).length < depth + 1) :
    (w ++ closing :: v).length < depth := by
  simp only [List.length_append, List.length_cons, List.length_nil] at short ⊢
  omega

end Brackets

/-- What may follow a value and the blanks around it. -/
def Closed (cs : List Char) : Prop :=
  Next (fun c => Scan.closes c = true) cs

theorem value_refuses (input : Array UInt8) (blank : w ∈ Syntax.ws) (closed : Closed rest)
    (short : (w ++ rest).length < depth) : (valueAt input depth).Refuses input (w ++ rest) :=
  .of_scans (scans_call depth .value) short (Scan.value_refuses depth blank closed)

theorem member_refuses (input : Array UInt8) (blank : w ∈ Syntax.ws) (closed : Closed rest)
    (short : (w ++ rest).length < depth) : (memberAt input depth).Refuses input (w ++ rest) :=
  .of_scans (scans_member (scans_call depth .value)) short (Scan.member_refuses blank closed)

/-! ### Alternatives -/

theorem core_of_object
    (grows : (readingOn input (callAt input depth) (object .value)).Grows input w rest shown) :
    (coreAt input depth).Grows input w rest shown :=
  (grows.here _).choice

theorem core_of_array (short : (w ++ rest).length < depth + 1)
    (other : Next (fun c => Syntax.among ['\x7b'] c = false) (w ++ rest))
    (grows : (readingOn input (callAt input depth) (array .value)).Grows input w rest shown) :
    (coreAt input depth).Grows input w rest shown :=
  ((grows.here _).cons (object_refuses short other)).choice

theorem core_of_scalar (short : (w ++ rest).length < depth + 1)
    (other : Next (fun c => Syntax.among ['\x7b', '['] c = false) (w ++ rest))
    (grows : OneGrows input (readingOn input (callAt input depth) string ::
      readingOn input (callAt input depth) number :: wordsAt input depth) w rest shown) :
    (coreAt input depth).Grows input w rest shown := by
  have apart : ∀ c, Syntax.among ['\x7b', '['] c = false →
      Syntax.among ['\x7b'] c = false ∧ Syntax.among ['['] c = false := by
    simp [Syntax.among]
  have array := fun c member => (apart c (other c member)).2
  have object := fun c member => (apart c (other c member)).1
  exact ((grows.cons (array_refuses short array)).cons (object_refuses short object)).choice

theorem core_of_word (short : (w ++ rest).length < depth + 1)
    (other : Next (fun c => Syntax.among ['\x7b', '[', '"'] c = false ∧ Scan.opensNumber c = false)
      (w ++ rest))
    (grows : OneGrows input (wordsAt input depth) w rest shown) :
    (coreAt input depth).Grows input w rest shown := by
  have apart : ∀ c, Syntax.among ['\x7b', '[', '"'] c = false →
      Syntax.among ['\x7b', '['] c = false ∧ Syntax.among ['"'] c = false := by
    simp [Syntax.among, and_assoc]
  have brackets := fun c member => (apart c (other c member).1).1
  have string := fun c member => (apart c (other c member).1).2
  have number := fun c member => (other c member).2
  exact core_of_scalar short brackets
    ((grows.cons (number_refuses number)).cons (string_refuses string))

theorem core_of_number (input : Array UInt8) (numeral : Numeral)
    (short : (numeral.letters ++ rest).length < depth + 1)
    (ended : Next (fun c => Scan.continues c = false) rest) :
    (coreAt input depth).Grows input numeral.letters rest (Leaf input .number numeral.letters) := by
  have apart : ∀ set : List Char, set.any Scan.opensNumber = false →
      Next (fun c => Syntax.among set c = false) (numeral.letters ++ rest) := by
    intro set apart
    exact Scan.opens_number.leads (Scan.among_apart apart) _ numeral.derived rest ended
  have number := (number_grows input (callAt input depth) numeral ended).here (wordsAt input depth)
  exact core_of_scalar short (apart _ (by decide))
    (number.cons (string_refuses (apart _ (by decide))))

theorem true_grows (input : Array UInt8) (depth : Nat) (rest : List Char) :
    OneGrows input (wordsAt input depth) ['t', 'r', 'u', 'e'] rest
      (Leaf input .true ['t', 'r', 'u', 'e']) :=
  (word_grows _ .true _ (by decide) rest).here _

theorem false_grows (input : Array UInt8) (depth : Nat) (rest : List Char) :
    OneGrows input (wordsAt input depth) ['f', 'a', 'l', 's', 'e'] rest
      (Leaf input .false ['f', 'a', 'l', 's', 'e']) :=
  .cons (word_refuses .true (by decide) (next_cons.mpr (by decide)))
    ((word_grows _ .false _ (by decide) rest).here _)

theorem null_grows (input : Array UInt8) (depth : Nat) (rest : List Char) :
    OneGrows input (wordsAt input depth) ['n', 'u', 'l', 'l'] rest
      (Leaf input .null ['n', 'u', 'l', 'l']) :=
  .cons (word_refuses .true (by decide) (next_cons.mpr (by decide)))
    (.cons (word_refuses .false (by decide) (next_cons.mpr (by decide)))
      ((word_grows _ .null _ (by decide) rest).here _))

/-! ### Blanks around values -/

theorem Closed.visible (closed : Closed rest) : Visible rest := fun c member =>
  Scan.apart_of_among (by decide) c (closed c member)

theorem ended_of_closed {after : List Char} (blank : after ∈ Syntax.ws) (closed : Closed rest) :
    Next (fun c => Scan.continues c = false) (after ++ rest) :=
  (Scanner.opens_letter _).leads_star (Scan.apart_of_among (by decide))
    (Scan.apart_of_among (by decide)) after blank rest closed

theorem value_grows {before after : List Char} (blank : before ∈ Syntax.ws)
    (blank' : after ∈ Syntax.ws) (closed : Closed rest)
    (short : (before ++ (w ++ after) ++ rest).length < depth)
    (core : ∀ depth, (w ++ (after ++ rest)).length < depth + 1 →
      (coreAt input depth).Grows input w (after ++ rest) shown)
    (visible : Visible (w ++ (after ++ rest))) :
    (valueAt input depth).Grows input (before ++ (w ++ after)) rest shown := by
  obtain ⟨depth, rfl⟩ := Nat.exists_eq_add_one_of_ne_zero (Nat.ne_zero_of_lt short)
  have short' : (w ++ (after ++ rest)).length < depth + 1 := by
    simp only [List.length_append] at short ⊢
    omega
  have inside := (core depth short').ahead (blanks_grow (callAt input depth) blank' closed.visible)
  rw [← List.append_assoc] at visible
  rw [valueAt_succ]
  exact (blanks_grow (callAt input depth) blank visible).behind inside

/-! ### Phrases -/

section Structure

variable {before after : List Char}

/-- The blanks of the brackets go to the outside of the value and to what stands inside. -/
theorem bracketed_text {mark mark' : Char} (opening : Structural mark)
    (closing : Structural mark') :
    before ++ (opening.text ++ w ++ closing.text ++ after) =
      before ++ opening.before ++ (mark :: (opening.after ++ (w ++ closing.before) ++ [mark']) ++
        (closing.after ++ after)) := by
  simp [Structural.text]

theorem array_grows (opening : Structural '[') (closing : Structural ']')
    (blank : before ∈ Syntax.ws) (blank' : after ∈ Syntax.ws) (closed : Closed rest)
    (short : (before ++ (opening.text ++ w ++ closing.text ++ after) ++ rest).length < depth)
    (inside : ∀ depth, (opening.after ++ (w ++ closing.before) ++
      ']' :: (closing.after ++ after ++ rest)).length < depth →
        (entriesAt input (callAt input depth) (.rule .value)).Grows input
          (opening.after ++ (w ++ closing.before)) (']' :: (closing.after ++ after ++ rest))
          shown) :
    (valueAt input depth).Grows input (before ++ (opening.text ++ w ++ closing.text ++ after)) rest
      (Branch .array shown) := by
  rw [bracketed_text] at short ⊢
  refine value_grows (Syntax.append_mem_ws blank opening.blank)
    (Syntax.append_mem_ws closing.blank' blank') closed short ?_ (next_cons.mpr (by decide))
  intro depth short
  exact core_of_array short (next_cons.mpr (by decide))
    (bracketed_grows .array (by decide) (by decide) (inside depth (inside_short short)))

theorem object_grows (opening : Structural '\x7b') (closing : Structural '\x7d')
    (blank : before ∈ Syntax.ws) (blank' : after ∈ Syntax.ws) (closed : Closed rest)
    (short : (before ++ (opening.text ++ w ++ closing.text ++ after) ++ rest).length < depth)
    (inside : ∀ depth, (opening.after ++ (w ++ closing.before) ++
      '\x7d' :: (closing.after ++ after ++ rest)).length < depth →
        (entriesAt input (callAt input depth) (member .value)).Grows input
          (opening.after ++ (w ++ closing.before)) ('\x7d' :: (closing.after ++ after ++ rest))
          shown) :
    (valueAt input depth).Grows input (before ++ (opening.text ++ w ++ closing.text ++ after)) rest
      (Branch .object shown) := by
  rw [bracketed_text] at short ⊢
  refine value_grows (Syntax.append_mem_ws blank opening.blank)
    (Syntax.append_mem_ws closing.blank' blank') closed short ?_ (next_cons.mpr (by decide))
  intro depth short
  exact core_of_object
    (bracketed_grows .object (by decide) (by decide) (inside depth (inside_short short)))

theorem member_text (key : List Piece) (colon : Structural ':') :
    before ++ (Piece.literal key ++ colon.text ++ w ++ after) =
      before ++ (Piece.literal key ++
        (colon.before ++ ([':'] ++ (colon.after ++ (w ++ after))))) := by
  simp [Structural.text]

theorem member_short {u v : List Char} {bound : Nat}
    (short : (before ++ (u ++ (v ++ ([':'] ++ w))) ++ rest).length < bound) :
    (w ++ rest).length < bound := by
  simp only [List.length_append] at short ⊢
  omega

theorem member_grows (key : List Piece) (colon : Structural ':') {value : Phrase .value}
    (blank : before ∈ Syntax.ws)
    (grows : (valueAt input depth).Grows input w rest (value.Pictured input)) :
    (memberAt input depth).Grows input
      (before ++ (Piece.literal key ++ (colon.before ++ ([':'] ++ w)))) rest
      ((Phrase.member key colon value).Pictured input) := by
  have marked := (mark_grows (callAt input depth) ':' (by decide) _).behind grows
  have spaced := (blanks_grow (callAt input depth) colon.blank (next_cons.mpr (by decide))).behind
    marked
  have entry : Grows input _ _ rest (Phrase.Entry input key value) :=
    (string_grows input (callAt input depth) key _).andThen spaced
      fun front back leaf pictured => ⟨front, back, rfl, leaf, pictured⟩
  have whole := (blanks_grow (callAt input depth) blank (next_cons.mpr (by decide))).behind entry
  rw [memberAt_eq]
  exact (whole.node .member).mono fun _ => Phrase.pictured_member colon

/-- The blanks of a comma go to the parts before and after it. -/
theorem separated_text {v : List Char} (comma : Structural ',') :
    before ++ (v ++ comma.text ++ w ++ after) =
      before ++ (v ++ comma.before) ++ ([','] ++ (comma.after ++ (w ++ after))) := by
  simp [Structural.text]

theorem separated_short {u v : List Char} {bound : Nat}
    (short : (u ++ ([','] ++ v) ++ rest).length < bound) :
    (u ++ ([','] ++ (v ++ rest))).length < bound ∧ (v ++ rest).length < bound := by
  simp only [List.length_append] at short ⊢
  omega

end Structure

/-- How the reading of a symbol takes a word before the rest: at once, or part by part. -/
def GrowsAs (input : Array UInt8) (depth : Nat) (rest : List Char) :
    Syntax.Symbol → List Char → (List (MarkedTree Tag) → Prop) → Prop
  | .value, w, shown => (valueAt input depth).Grows input w rest shown
  | .member, w, shown => (memberAt input depth).Grows input w rest shown
  | .members, w, shown => GrowsAll input (memberAt input depth) [','] rest w shown
  | .elements, w, shown => GrowsAll input (valueAt input depth) [','] rest w shown

/-- A phrase is taken with the blanks around it, and its trees show what it denotes. -/
theorem Phrase.grows {symbol : Syntax.Symbol} (phrase : Phrase symbol) {before after : List Char}
    (blank : before ∈ Syntax.ws) (blank' : after ∈ Syntax.ws) (closed : Closed rest)
    (short : (before ++ (phrase.text ++ after) ++ rest).length < depth) :
    GrowsAs input depth rest symbol (before ++ (phrase.text ++ after)) (phrase.Pictured input) := by
  -- The induction is on the derivation.  The blanks around a phrase differ from those around its
  -- parts, which get the blanks of the structural characters next to them.
  induction phrase generalizing before after rest depth with
  | null =>
      refine (value_grows blank blank' closed short ?_ (next_cons.mpr (by decide))).mono
        fun _ => pictured_null
      intro depth short
      exact core_of_word short (next_cons.mpr (by decide)) (null_grows input depth _)
  | true =>
      refine (value_grows blank blank' closed short ?_ (next_cons.mpr (by decide))).mono
        fun _ => pictured_true
      intro depth short
      exact core_of_word short (next_cons.mpr (by decide)) (true_grows input depth _)
  | false =>
      refine (value_grows blank blank' closed short ?_ (next_cons.mpr (by decide))).mono
        fun _ => pictured_false
      intro depth short
      exact core_of_word short (next_cons.mpr (by decide)) (false_grows input depth _)
  | number numeral =>
      have ended := ended_of_closed blank' closed
      have visible : Visible (numeral.letters ++ (after ++ rest)) :=
        Scan.opens_number.leads (Scan.among_apart (by decide)) _ numeral.derived _ ended
      refine (value_grows blank blank' closed short ?_ visible).mono fun _ => pictured_number
      intro depth short
      exact core_of_number input numeral short ended
  | string pieces =>
      refine (value_grows blank blank' closed short ?_ (next_cons.mpr (by decide))).mono
        fun _ => pictured_string
      intro depth short
      have string := string_grows input (callAt input depth) pieces (after ++ rest)
      exact core_of_scalar short (next_cons.mpr (by decide)) (string.here _)
  | emptyArray opening closing =>
      -- A value is tried between the brackets and refused at the closing one.
      rw [text, ← List.append_nil opening.text] at short ⊢
      refine (array_grows opening closing blank blank' closed short ?_).mono
        fun _ => pictured_emptyArray opening closing
      intro depth short
      have between := Syntax.append_mem_ws opening.blank' closing.blank
      have refuses := value_refuses input between (next_cons.mpr (by decide)) short
      exact nothing_grows between refuses (next_cons.mpr (by decide))
  | array opening elements closing ih =>
      refine (array_grows opening closing blank blank' closed short ?_).mono
        fun _ => pictured_array opening closing
      intro depth short
      exact list_grows (by decide)
        (ih opening.blank' closing.blank (next_cons.mpr (by decide)) short)
  | emptyObject opening closing =>
      rw [text, ← List.append_nil opening.text] at short ⊢
      refine (object_grows opening closing blank blank' closed short ?_).mono
        fun _ => pictured_emptyObject opening closing
      intro depth short
      have between := Syntax.append_mem_ws opening.blank' closing.blank
      have refuses := member_refuses input between (next_cons.mpr (by decide)) short
      exact nothing_grows between refuses (next_cons.mpr (by decide))
  | object opening entries closing ih =>
      refine (object_grows opening closing blank blank' closed short ?_).mono
        fun _ => pictured_object opening closing
      intro depth short
      exact list_grows (by decide)
        (ih opening.blank' closing.blank (next_cons.mpr (by decide)) short)
  | member key colon value ih =>
      rw [text, member_text] at short ⊢
      exact member_grows key colon blank (ih colon.blank' blank' closed (member_short short))
  | lastMember only ih => exact .last ((ih blank blank' closed short).mono fun _ => .lastMember)
  | moreMembers first comma others ih ih' =>
      rw [text, separated_text] at short ⊢
      obtain ⟨short, short'⟩ := separated_short short
      exact .more (ih blank comma.blank (next_cons.mpr (by decide)) short)
        (ih' comma.blank' blank' closed short') fun _ _ => .moreMembers comma
  | lastElement only ih => exact .last ((ih blank blank' closed short).mono fun _ => .lastElement)
  | moreElements first comma others ih ih' =>
      rw [text, separated_text] at short ⊢
      obtain ⟨short, short'⟩ := separated_short short
      exact .more (ih blank comma.blank (next_cons.mpr (by decide)) short)
        (ih' comma.blank' blank' closed short') fun _ _ => .moreElements comma

end PegForest.Json
