import PegForest.Proofs.NestedList.Prefix
import PegForest.Proofs.Reading.Text

/-!
# The grammar of nested lists on text

Where the text of a phrase stands, its matcher takes the phrase to its end and builds its trees, if
no letter follows that would prolong a word.  And whatever a matcher takes is the text of a phrase;
where it takes nothing it fails, and it fails behind the characters that open the phrase.

A list calls itself behind an opening parenthesis, and every round of a tail takes an element, so a
depth and a number of rounds beyond the number of characters are enough.
-/

set_option autoImplicit false

namespace PegForest.NestedList

open Text.Ascii
open Reading (Spells exactly_taken exactly_refused spells_within)

variable {input : Array UInt8} {depth rounds cursor next : Nat} {refs : List Backref}
  {cs rest : List Char} {trees : List (MarkedTree Tag)}

/-! ## The readings of the symbols -/

def markAt (input : Array UInt8) (mark : Char) : Reading Tag :=
  .one ⟨input, input.size⟩ ((AtomClass.exactly (byte mark)).test .natural)

def letterAt (input : Array UInt8) : Reading Tag :=
  .one ⟨input, input.size⟩ ((AtomClass.within (byte 'a') (byte 'z')).test .natural)

def wordAt (input : Array UInt8) : Reading Tag :=
  ((letterAt input).thenIfMoved ((letterAt input).repeated input)).node (some .word) false

def listAt (input : Array UInt8) (depth : Nat) : Reading Tag :=
  grammar.callReading .natural ⟨input, input.size⟩ depth .list

def elementAt (input : Array UInt8) (depth : Nat) : Reading Tag :=
  .choice [wordAt input, listAt input depth]

def tailAt (input : Array UInt8) (depth rounds : Nat) : Reading Tag :=
  .listRounds (elementAt input depth) (markAt input ',') (markAt input ')') rounds

theorem listAt_succ (input : Array UInt8) (depth : Nat) :
    listAt input (depth + 1) =
      ((markAt input '(').andThen fun refs cursor =>
        tailAt input depth (Window.left ⟨input, input.size⟩ cursor + 1) refs cursor).node
          (some .list) false :=
  rfl

/-- The reading of a symbol, whose lists nest at most `depth` deep and whose own entries are at most
`rounds`. -/
def Symbol.reading (input : Array UInt8) (depth rounds : Nat) : Symbol → Reading Tag
  | .element => elementAt input depth
  | .list => listAt input depth
  | .tail => tailAt input depth rounds

/-! ## Marks and words -/

theorem Phrase.before_rest {symbol : Symbol} (phrase : Phrase symbol)
    (place : Before input cursor (phrase.text ++ rest)) :
    Before input (cursor + phrase.length) rest :=
  place.drop phrase.ascii_text

theorem spells_lower : Spells (.within (byte 'a') (byte 'z')) Char.isLower :=
  spells_within (by decide) (by decide)

theorem mark_taken {mark : Char} (ascii : mark.toNat < 128)
    (place : Before input cursor (mark :: rest)) (refs : List Backref) :
    markAt input mark refs cursor = .ok (.matched (cursor + 1) [] []) ∧
      Before input (cursor + 1) rest :=
  exactly_taken ascii place refs

theorem mark_refused {mark : Char} (ascii : mark.toNat < 128) (place : Before input cursor cs)
    (other : Scanner.Next (· ≠ mark) cs) (refs : List Backref) :
    markAt input mark refs cursor = .ok (.failed cursor) :=
  exactly_refused ascii place other refs

theorem word_taken (w : Word) (place : Before input cursor (w.letters ++ rest)) (ended : Ended rest)
    (refs : List Backref) :
    wordAt input refs cursor =
      .ok (.matched (cursor + w.letters.length) ((Phrase.word w).trees cursor) []) :=
  Reading.node_of_matched (Reading.plus_taken spells_lower place w.nonempty w.lower ended refs) _ _

theorem word_refused (place : Before input cursor cs) (ended : Ended cs) (refs : List Backref) :
    wordAt input refs cursor = .ok (.failed cursor) :=
  Reading.node_of_failed (Reading.plus_refused spells_lower place ended _ refs) _ _

/-! ## Elements and tails -/

theorem element_of_word (found : wordAt input refs cursor = .ok (.matched next trees [])) :
    elementAt input depth refs cursor = .ok (.matched next trees []) :=
  Reading.firstOf_of_matched found cursor

theorem element_of_list (place : Before input cursor cs) (ended : Ended cs)
    (found : listAt input depth refs cursor = .ok (.matched next trees [])) :
    elementAt input depth refs cursor = .ok (.matched next trees []) :=
  (Reading.firstOf_of_failed (word_refused place ended refs) cursor).trans
    (Reading.firstOf_of_matched found _)

theorem element_of_none {k : Nat} (place : Before input cursor cs) (ended : Ended cs)
    (found : listAt input depth refs cursor = .ok (.failed (cursor + k))) :
    elementAt input depth refs cursor = .ok (.failed (cursor + k)) := by
  rw [elementAt, Reading.choice, Reading.firstOf_of_failed (word_refused place ended refs),
    Reading.firstOf_of_failed found, Nat.max_self, Nat.max_eq_right (Nat.le_add_right cursor k)]
  rfl

theorem tail_close (place : Before input cursor (')' :: rest)) (refs : List Backref) :
    tailAt input depth (rounds + 1) refs cursor = .ok (.matched (cursor + 1) [] []) :=
  Reading.closeOr_of_closed (mark_taken (by decide) place refs).1

def afterElement (input : Array UInt8) (depth rounds cursor : Nat) : Reading Tag :=
  fun refs afterItem =>
    (markAt input ')').closeOr (markAt input ',')
      (fun refs next =>
        if next = cursor then .ok (.failed afterItem) else tailAt input depth rounds refs next)
      refs afterItem

theorem after_close (place : Before input cursor (')' :: rest)) (depth rounds start : Nat)
    (refs : List Backref) :
    afterElement input depth rounds start refs cursor = .ok (.matched (cursor + 1) [] []) :=
  Reading.closeOr_of_closed (mark_taken (by decide) place refs).1

theorem after_comma {start : Nat} (place : Before input cursor (',' :: rest))
    (moved : start ≤ cursor) (depth rounds : Nat) (refs : List Backref) :
    afterElement input depth rounds start refs cursor =
      tailAt input depth rounds refs (cursor + 1) := by
  have unclosed : markAt input ')' refs cursor = .ok (.failed cursor) :=
    mark_refused (by decide) place (Scanner.next_cons.mpr (by decide)) refs
  have comma := (mark_taken (by decide) place refs).1
  rw [afterElement, Reading.closeOr_of_matched unclosed comma, Reading.resume_nil,
    if_neg (by omega)]

theorem after_other (place : Before input cursor cs) (unclosed : Scanner.Next (· ≠ ')') cs)
    (other : Scanner.Next (· ≠ ',') cs) (depth rounds start : Nat) (refs : List Backref) :
    afterElement input depth rounds start refs cursor = .ok (.failed cursor) := by
  rw [afterElement, Reading.closeOr_of_failed (mark_refused (by decide) place unclosed refs)
    (mark_refused (by decide) place other refs), Nat.max_self]

section Entry

variable (place : Before input cursor cs) (inside : Scanner.Next (· ≠ ')') cs)

include place inside

theorem tail_of_none {k : Nat}
    (missing : elementAt input depth refs cursor = .ok (.failed (cursor + k))) :
    tailAt input depth (rounds + 1) refs cursor = .ok (.failed (cursor + k)) := by
  have furthest : max cursor (cursor + k) = cursor + k := Nat.max_eq_right (Nat.le_add_right cursor k)
  rw [← furthest]
  exact Reading.closeOr_of_failed (mark_refused (by decide) place inside refs) missing

variable (found : elementAt input depth refs cursor = .ok (.matched next trees [])) (rounds : Nat)

include found

theorem tail_of_element :
    tailAt input depth (rounds + 1) refs cursor =
      (afterElement input depth rounds cursor).resume refs next trees [] :=
  Reading.closeOr_of_matched (mark_refused (by decide) place inside refs) found

theorem tail_last (place' : Before input next (')' :: rest)) :
    tailAt input depth (rounds + 1) refs cursor = .ok (.matched (next + 1) trees []) := by
  have closed := after_close place' depth rounds cursor (refs ++ [])
  rw [tail_of_element place inside found, Reading.resume_of_matched closed, List.append_nil,
    List.append_nil]

theorem tail_more (place' : Before input next (',' :: rest)) (moved : cursor ≤ next) :
    tailAt input depth (rounds + 1) refs cursor =
      (tailAt input depth rounds).resume refs (next + 1) trees [] := by
  rw [tail_of_element place inside found, Reading.resume, after_comma place' moved]
  rfl

theorem tail_stuck (place' : Before input next rest) (unclosed : Scanner.Next (· ≠ ')') rest)
    (other : Scanner.Next (· ≠ ',') rest) :
    tailAt input depth (rounds + 1) refs cursor = .ok (.failed next) := by
  have stuck := after_other place' unclosed other depth rounds cursor (refs ++ [])
  rw [tail_of_element place inside found]
  exact Reading.resume_of_failed stuck trees

end Entry

/-! ## Lists -/

def roundsAt (input : Array UInt8) (cursor : Nat) : Nat :=
  Window.left ⟨input, input.size⟩ cursor + 1

theorem lt_roundsAt (place : Before input cursor cs) : cs.length < roundsAt input cursor := by
  have length := length_le_encodeAll cs
  rw [roundsAt, place.left]
  omega

section Parens

variable (place : Before input cursor ('(' :: rest))

include place

theorem list_of_tail
    (found : tailAt input depth (roundsAt input (cursor + 1)) refs (cursor + 1) =
      .ok (.matched next trees [])) :
    listAt input (depth + 1) refs cursor =
      .ok (.matched next [.node (some .list) cursor next false (trees.map MarkedTree.unmark)] []) := by
  have opened := (mark_taken (by decide) place refs).1
  rw [listAt_succ]
  apply Reading.node_of_matched
  rw [Reading.andThen_of_matched opened, Reading.resume_nil]
  exact found

theorem list_of_none {offset : Nat}
    (missing : tailAt input depth (roundsAt input (cursor + 1)) refs (cursor + 1) =
      .ok (.failed offset)) :
    listAt input (depth + 1) refs cursor = .ok (.failed offset) := by
  have opened := (mark_taken (by decide) place refs).1
  rw [listAt_succ]
  apply Reading.node_of_failed
  rw [Reading.andThen_of_matched opened, Reading.resume_nil]
  exact missing

end Parens

theorem list_refused (place : Before input cursor cs) (other : Scanner.Next (· ≠ '(') cs)
    (refs : List Backref) : listAt input (depth + 1) refs cursor = .ok (.failed cursor) := by
  rw [listAt_succ]
  apply Reading.node_of_failed
  exact Reading.andThen_of_failed (mark_refused (by decide) place other refs)

/-! ## Phrases are taken -/

theorem open_element (element : Phrase .element) (rest : List Char) :
    Scanner.Next (· ≠ ')') (element.text ++ rest) := by
  obtain ⟨c, others, begins, first⟩ := element.cons_of_element
  rw [begins, List.cons_append, Scanner.next_cons]
  intro close
  rw [close] at first
  exact absurd first (by decide)

theorem ended_list (list : Phrase .list) (rest : List Char) : Ended (list.text ++ rest) := by
  cases list with
  | parens tail => exact ended_cons (by decide)

theorem taken {symbol : Symbol} (phrase : Phrase symbol)
    (place : Before input cursor (phrase.text ++ rest)) (stops : phrase.Stops rest)
    (deep : phrase.length ≤ depth) (enough : phrase.length ≤ rounds) (refs : List Backref) :
    symbol.reading input depth rounds refs cursor =
      .ok (.matched (cursor + phrase.length) (phrase.trees cursor) []) := by
  -- A list takes a level and a comma takes a round, and each of them is a character of its own.
  induction phrase generalizing cursor rest depth rounds refs with
  | word w => exact element_of_word (word_taken w place stops refs)
  | nested list ih =>
      exact element_of_list place (ended_list list rest)
        (ih place (list.list_stops rest) deep enough refs)
  | parens tail ih =>
      rw [Phrase.length_parens] at deep
      obtain ⟨depth, rfl⟩ := Nat.exists_eq_add_one_of_ne_zero (Nat.ne_zero_of_lt deep)
      have place' : Before input (cursor + 1) (tail.text ++ rest) := place.tail (by decide)
      have short : tail.length ≤ roundsAt input (cursor + 1) := by
        have length := lt_roundsAt place'
        rw [List.length_append, ← Phrase.length] at length
        omega
      have found := ih place' (tail.tail_stops rest) (Nat.le_of_succ_le_succ deep) short refs
      have whole := list_of_tail place found
      rw [Phrase.unmark_trees, Nat.add_assoc, Nat.add_comm 1, ← Phrase.length_parens] at whole
      exact whole
  | close =>
      obtain ⟨rounds, rfl⟩ := Nat.exists_eq_add_one_of_ne_zero (Nat.ne_zero_of_lt enough)
      exact tail_close place refs
  | last element ih =>
      rw [Phrase.length_last] at deep enough
      obtain ⟨rounds, rfl⟩ := Nat.exists_eq_add_one_of_ne_zero (Nat.ne_zero_of_lt enough)
      rw [Phrase.text, List.append_assoc] at place
      have found := ih place element.stops_close (Nat.le_of_succ_le deep)
        (Nat.le_of_succ_le_succ enough) refs
      have whole := tail_last place (open_element element _) found rounds
        (element.before_rest place)
      rw [Nat.add_assoc, ← Phrase.length_last] at whole
      exact whole
  | more element others ih ih' =>
      rw [Phrase.length_more] at deep enough
      obtain ⟨rounds, rfl⟩ := Nat.exists_eq_add_one_of_ne_zero (show rounds ≠ 0 by omega)
      rw [Phrase.text, List.append_assoc] at place
      have place' : Before input (cursor + element.length) (',' :: (others.text ++ rest)) :=
        element.before_rest place
      have shallow : element.length ≤ depth := by omega
      have found := ih place element.stops_comma shallow shallow refs
      have deep' : others.length ≤ depth := by omega
      have enough' : others.length ≤ rounds := by omega
      have later := ih' (place'.tail (by decide)) (others.tail_stops rest) deep' enough' (refs ++ [])
      have whole := (tail_more place (open_element element _) found rounds place'
        (Nat.le_add_right cursor element.length)).trans (Reading.resume_of_matched later)
      rw [Nat.add_assoc cursor, Nat.add_assoc cursor, ← Phrase.length_more] at whole
      exact whole

/-! ## What is taken is a phrase -/

/-- An answer is a phrase that the characters begin with, or a failure where they get stuck. -/
def Finds (symbol : Symbol) (cursor : Nat) (cs : List Char) (answer : Except Fault (Outcome Tag)) :
    Prop :=
  (∃ phrase : Phrase symbol, ∃ rest, cs = phrase.text ++ rest ∧ phrase.Stops rest ∧
    answer = .ok (.matched (cursor + phrase.length) (phrase.trees cursor) [])) ∨
  ∃ front rest, cs = front ++ rest ∧ Stuck symbol front rest ∧
    answer = .ok (.failed (cursor + front.length))

theorem exists_word (going : ¬Ended cs) :
    ∃ w : Word, ∃ rest, cs = w.letters ++ rest ∧ Ended rest := by
  obtain ⟨w, rest, rfl, lower, ended⟩ := Scanner.split_while Char.isLower cs
  have nonempty : w ≠ [] := by
    intro empty
    rw [empty, List.nil_append] at going
    exact going ended
  exact ⟨⟨w, nonempty, lower⟩, rest, rfl, ended⟩

theorem finds_element (place : Before input cursor cs)
    (list : Finds .list cursor cs (listAt input depth refs cursor)) :
    Finds .element cursor cs (elementAt input depth refs cursor) := by
  by_cases ended : Ended cs
  · obtain ⟨list, rest, split, -, found⟩ | ⟨front, rest, split, stuck, missing⟩ := list
    · exact .inl ⟨.nested list, rest, split, trivial, element_of_list place ended found⟩
    · refine .inr ⟨front, rest, split, stuck.nested (split ▸ ended), ?_⟩
      exact element_of_none place ended missing
  · obtain ⟨w, rest, split, ended'⟩ := exists_word ended
    rw [split] at place
    exact .inl ⟨.word w, rest, split, ended', element_of_word (word_taken w place ended' refs)⟩

theorem no_element {k : Nat} (place : Before input cursor cs) (short : cs.length ≤ depth)
    (missing : elementAt input depth refs cursor = .ok (.failed k)) (element : Phrase .element)
    (after : List Char) (split : cs = element.text ++ after) : ¬element.Stops after := by
  intro stops
  subst split
  have deep : element.length ≤ depth := by
    rw [List.length_append, ← Phrase.length] at short
    omega
  have found := taken element place stops deep (Nat.le_refl _) refs
  rw [Symbol.reading, missing] at found
  cases found

/-- Every round takes an element and a comma, or it is the last one. -/
theorem finds_tail
    (elements : ∀ refs cursor cs, Before input cursor cs → cs.length < depth →
      Finds .element cursor cs (elementAt input depth refs cursor))
    (place : Before input cursor cs) (short : cs.length < depth) (enough : cs.length < rounds)
    (refs : List Backref) : Finds .tail cursor cs (tailAt input depth rounds refs cursor) := by
  induction rounds generalizing cursor cs refs with
  | zero => cases enough
  | succ rounds ih =>
      -- A closing bracket ends the rounds before anything else is tried.
      by_cases inside : Scanner.Next (· ≠ ')') cs
      · obtain ⟨element, rest, rfl, stops, found⟩ | ⟨front, rest, rfl, stuck, missing⟩ :=
          elements refs cursor cs place short
        · have place' := element.before_rest place
          by_cases unclosed : Scanner.Next (· ≠ ')') rest
          · by_cases other : Scanner.Next (· ≠ ',') rest
            · exact .inr ⟨element.text, rest, rfl, stuck_unseparated element stops unclosed other,
                tail_stuck place inside found rounds place' unclosed other⟩
            · obtain ⟨rest, rfl⟩ := Scanner.exists_of_mark other
              rw [List.length_append, List.length_cons] at short enough
              have more := tail_more place inside found rounds place'
                (Nat.le_add_right cursor element.length)
              obtain ⟨others, rest, rfl, -, later⟩ | ⟨front, rest, rfl, stuck, missing⟩ :=
                ih (place'.tail (by decide)) (by omega) (by omega) (refs ++ [])
              · refine .inl ⟨.more element others, rest, by simp [Phrase.text], trivial, ?_⟩
                rw [more, Reading.resume_of_matched later, Phrase.length_more, Phrase.trees]
                simp only [Nat.add_assoc, List.append_nil]
              · refine .inr ⟨element.text ++ ',' :: front, rest, by simp, stuck.later element, ?_⟩
                rw [more, Reading.resume_of_failed missing, List.length_append, List.length_cons,
                  Phrase.length]
                simp only [Nat.add_assoc, Nat.add_comm 1]
          · obtain ⟨rest, rfl⟩ := Scanner.exists_of_mark unclosed
            refine .inl ⟨.last element, rest, by simp [Phrase.text], trivial, ?_⟩
            rw [Phrase.length_last, ← Nat.add_assoc]
            exact tail_last place inside found rounds place'
        · have incomplete := no_element place (Nat.le_of_lt short) missing
          exact .inr ⟨front, rest, rfl, stuck.missing inside incomplete,
            tail_of_none place inside missing⟩
      · obtain ⟨rest, rfl⟩ := Scanner.exists_of_mark inside
        exact .inl ⟨.close, rest, rfl, trivial, tail_close place refs⟩

theorem finds_list (depth : Nat) (refs : List Backref) (cursor : Nat) (cs : List Char)
    (place : Before input cursor cs) (short : cs.length < depth) :
    Finds .list cursor cs (listAt input depth refs cursor) := by
  induction depth generalizing refs cursor cs with
  | zero => cases short
  | succ depth ih =>
      by_cases refused : Scanner.Next (· ≠ '(') cs
      · exact .inr ⟨[], cs, rfl, stuck_refused refused, list_refused place refused refs⟩
      · obtain ⟨rest, rfl⟩ := Scanner.exists_of_mark refused
        have place' : Before input (cursor + 1) rest := place.tail (by decide)
        have elements : ∀ refs cursor cs, Before input cursor cs → cs.length < depth →
            Finds .element cursor cs (elementAt input depth refs cursor) :=
          fun refs cursor cs here short => finds_element here (ih refs cursor cs here short)
        obtain ⟨tail, others, rfl, -, found⟩ | ⟨front, others, rfl, stuck, missing⟩ :=
          finds_tail elements place' (Nat.lt_of_succ_lt_succ short) (lt_roundsAt place') refs
        · refine .inl ⟨.parens tail, others, rfl, trivial, ?_⟩
          rw [list_of_tail place found, Phrase.unmark_trees, Nat.add_assoc, Nat.add_comm 1,
            ← Phrase.length_parens]
          rfl
        · refine .inr ⟨'(' :: front, others, rfl, stuck.parens, ?_⟩
          rw [list_of_none place missing, List.length_cons, Nat.add_assoc, Nat.add_comm 1]

end PegForest.NestedList
