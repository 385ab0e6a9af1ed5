import PegForest.Proofs.Json.Scanner
import PegForest.Proofs.NestedList.Phrase

/-!
# Beginnings of phrases

Characters open a symbol when they can be prolonged to a phrase of it.  Characters are stuck in front
of others when they open the symbol, and no longer do with the next character added.

A phrase can be told from what follows it: two phrases at the front of the same characters are the
same, if neither is a word that goes on.  So once an element is complete, only a comma or a closing
parenthesis can come next, and where a symbol gets stuck follows from where its parts get stuck.
-/

set_option autoImplicit false

namespace PegForest.NestedList

variable {symbol : Symbol} {c : Char} {v w x y cs front rest : List Char}

/-! ## Phrases at the front -/

def Ended (cs : List Char) : Prop :=
  Scanner.Next (fun c => c.isLower = false) cs

theorem ended_cons (other : c.isLower = false) : Ended (c :: rest) :=
  Scanner.next_cons.mpr other

theorem takeWhile_of_ended (ended : Ended cs) : cs.takeWhile Char.isLower = [] := by
  cases cs with
  | nil => rfl
  | cons c rest => exact List.takeWhile_cons_of_neg (by simp [Scanner.next_cons.mp ended])

theorem letters_unique (same : v ++ x = w ++ y) (lower : ∀ c ∈ v, c.isLower = true)
    (lower' : ∀ c ∈ w, c.isLower = true) (ended : Ended x) (ended' : Ended y) : v = w := by
  have run := congrArg (List.takeWhile Char.isLower) same
  rwa [List.takeWhile_append_of_pos lower, List.takeWhile_append_of_pos lower',
    takeWhile_of_ended ended, takeWhile_of_ended ended', List.append_nil, List.append_nil] at run

namespace Phrase

/-- Nothing prolongs the phrase: a word is not followed by a letter. -/
def Stops : {symbol : Symbol} → Phrase symbol → List Char → Prop
  | _, .word _, rest => Ended rest
  | _, _, _ => True

theorem stops_of_ended (phrase : Phrase symbol) (ended : Ended rest) : phrase.Stops rest := by
  cases phrase with
  | word w => exact ended
  | _ => trivial

theorem Stops.cons {phrase : Phrase symbol} (stops : phrase.Stops (c :: v)) (w : List Char) :
    phrase.Stops (c :: w) := by
  cases phrase with
  | word word => exact ended_cons (Scanner.next_cons.mp stops)
  | _ => trivial

theorem stops_close (phrase : Phrase symbol) : phrase.Stops (')' :: rest) :=
  phrase.stops_of_ended (ended_cons (by decide))

theorem stops_comma (phrase : Phrase symbol) : phrase.Stops (',' :: rest) :=
  phrase.stops_of_ended (ended_cons (by decide))

theorem list_stops (list : Phrase .list) (rest : List Char) : list.Stops rest := by
  cases list with
  | parens tail => trivial

theorem tail_stops (tail : Phrase .tail) (rest : List Char) : tail.Stops rest := by
  cases tail <;> trivial

theorem list_ne_word (list : Phrase .list) (w : Word) : list.text ++ x ≠ w.letters ++ y := by
  cases list with
  | parens tail =>
      obtain ⟨c, others, letters⟩ := List.exists_cons_of_ne_nil w.nonempty
      have lower := w.lower c (by rw [letters]; exact List.mem_cons_self)
      intro same
      rw [letters] at same
      rw [← (List.cons.inj same).1] at lower
      exact absurd lower (by decide)

theorem element_ne_close (element : Phrase .element) : element.text ++ x ≠ ')' :: y := by
  obtain ⟨c, others, begins, first⟩ := element.cons_of_element
  intro same
  rw [begins] at same
  rw [(List.cons.inj same).1] at first
  exact absurd first (by decide)

/-- Two phrases that characters begin with are the same, if neither goes on. -/
theorem text_unique (phrase other : Phrase symbol) (same : phrase.text ++ x = other.text ++ y)
    (stops : phrase.Stops x) (stops' : other.Stops y) : phrase.text = other.text := by
  induction phrase generalizing x y with
  | word w =>
      cases other with
      | word w' => exact letters_unique same w.lower w'.lower stops stops'
      | nested list => exact absurd same.symm (list.list_ne_word w)
  | nested list ih =>
      cases other with
      | word w => exact absurd same (list.list_ne_word w)
      | nested list' => exact ih list' same (list.list_stops x) (list'.list_stops y)
  | parens tail ih =>
      cases other with
      | parens tail' =>
          have inner := (List.cons.inj same).2
          exact congrArg ('(' :: ·) (ih tail' inner (tail.tail_stops x) (tail'.tail_stops y))
  | close =>
      cases other with
      | close => rfl
      | last element' =>
          rw [text, text, List.append_assoc] at same
          exact absurd same.symm element'.element_ne_close
      | more element' others' =>
          rw [text, text, List.append_assoc] at same
          exact absurd same.symm element'.element_ne_close
  -- What stands behind an element tells whether the list ends with it.
  | last element ih =>
      rw [text, List.append_assoc] at same
      cases other with
      | close => exact absurd same element.element_ne_close
      | last element' =>
          rw [text, List.append_assoc] at same
          rw [text, text, ih element' same element.stops_close element'.stops_close]
      | more element' others' =>
          rw [text, List.append_assoc] at same
          have front := ih element' same element.stops_close element'.stops_comma
          rw [front] at same
          cases List.append_cancel_left same
  | more element others ih ih' =>
      rw [text, List.append_assoc] at same
      cases other with
      | close => exact absurd same element.element_ne_close
      | last element' =>
          rw [text, List.append_assoc] at same
          have front := ih element' same element.stops_comma element'.stops_close
          rw [front] at same
          cases List.append_cancel_left same
      | more element' others' =>
          rw [text, List.append_assoc] at same
          have front := ih element' same element.stops_comma element'.stops_comma
          rw [front] at same
          have later := (List.cons.inj (List.append_cancel_left same)).2
          rw [text, text, front, ih' others' later (others.tail_stops x) (others'.tail_stops y)]

end Phrase

/-! ## Characters that open a symbol -/

def Opens (symbol : Symbol) (w : List Char) : Prop :=
  ∃ phrase : Phrase symbol, w <+: phrase.text

theorem opens_iff : Opens symbol w ↔ ∃ v, Derives symbol v ∧ w <+: v := by
  constructor
  · intro ⟨phrase, begins⟩
    exact ⟨phrase.text, phrase.derives, begins⟩
  · intro ⟨v, derived, begins⟩
    obtain ⟨phrase, rfl⟩ := derives_iff.mp derived
    exact ⟨phrase, begins⟩

theorem opens_nil (symbol : Symbol) : Opens symbol [] := by
  cases symbol with
  | element => exact ⟨.nested (.parens .close), List.nil_prefix⟩
  | list => exact ⟨.parens .close, List.nil_prefix⟩
  | tail => exact ⟨.close, List.nil_prefix⟩

theorem opens_parens : Opens .list (c :: w) ↔ c = '(' ∧ Opens .tail w := by
  constructor
  · intro ⟨phrase, begins⟩
    cases phrase with
    | parens tail =>
        obtain ⟨same, inner⟩ := List.cons_prefix_cons.mp begins
        exact ⟨same, tail, inner⟩
  · intro ⟨same, tail, inner⟩
    exact ⟨.parens tail, List.cons_prefix_cons.mpr ⟨same, inner⟩⟩

theorem Opens.nested (opens : Opens .list w) : Opens .element w := by
  obtain ⟨list, begins⟩ := opens
  exact ⟨.nested list, begins⟩

theorem Opens.list (opens : Opens .element w) (ended : Ended w) : Opens .list w := by
  obtain ⟨element, begins⟩ := opens
  cases element with
  | nested list => exact ⟨list, begins⟩
  | word word =>
      cases w with
      | nil => exact opens_nil .list
      | cons c rest =>
          have lower := word.lower c (begins.subset List.mem_cons_self)
          rw [Scanner.next_cons.mp ended] at lower
          cases lower

theorem Opens.last (opens : Opens .element w) : Opens .tail w := by
  obtain ⟨element, begins⟩ := opens
  exact ⟨.last element, begins.trans (List.prefix_append _ _)⟩

theorem Opens.more (opens : Opens .tail w) (element : Phrase .element) :
    Opens .tail (element.text ++ ',' :: w) := by
  obtain ⟨others, begins⟩ := opens
  exact ⟨.more element others, List.prefix_append_right_inj _ |>.mpr
    (List.cons_prefix_cons.mpr ⟨rfl, begins⟩)⟩

theorem prefix_append_cases (begins : w <+: x ++ y) : w <+: x ∨ ∃ v, w = x ++ v ∧ v <+: y := by
  obtain ⟨rest, same⟩ := begins
  rcases List.append_eq_append_iff.mp same with ⟨more, whole, -⟩ | ⟨more, whole, behind⟩
  · exact .inl ⟨more, whole.symm⟩
  · exact .inr ⟨more, whole, rest, behind.symm⟩

/-- A tail that is opened is closed at once, or begins with an element that is not complete, or with
one behind which comes a closing parenthesis or a comma. -/
theorem Opens.tail_cases (opens : Opens .tail w) :
    w <+: [')'] ∨ Opens .element w ∨ ∃ element : Phrase .element, ∃ c v, w = element.text ++ c :: v ∧
      (c = ')' ∨ c = ',' ∧ Opens .tail v) := by
  obtain ⟨tail, begins⟩ := opens
  cases tail with
  | close => exact .inl begins
  | last element =>
      rcases prefix_append_cases begins with inside | ⟨v, rfl, behind⟩
      · exact .inr (.inl ⟨element, inside⟩)
      · cases v with
        | nil => exact .inr (.inl ⟨element, by rw [List.append_nil]⟩)
        | cons c v =>
            have close := (List.cons_prefix_cons.mp behind).1
            exact .inr (.inr ⟨element, c, v, rfl, .inl close⟩)
  | more element others =>
      rcases prefix_append_cases begins with inside | ⟨v, rfl, behind⟩
      · exact .inr (.inl ⟨element, inside⟩)
      · cases v with
        | nil => exact .inr (.inl ⟨element, by rw [List.append_nil]⟩)
        | cons c v =>
            obtain ⟨comma, later⟩ := List.cons_prefix_cons.mp behind
            exact .inr (.inr ⟨element, c, v, rfl, .inr ⟨comma, others, later⟩⟩)

theorem Opens.after_element {element : Phrase .element}
    (opens : Opens .tail (element.text ++ c :: v)) (stops : element.Stops (c :: v)) :
    c = ')' ∨ c = ',' ∧ Opens .tail v := by
  rcases opens.tail_cases with closed | incomplete | ⟨other, c', v', same, next⟩
  · obtain ⟨rest, same⟩ := closed
    rw [List.append_assoc] at same
    exact absurd same element.element_ne_close
  · obtain ⟨longer, rest, same⟩ := incomplete
    rw [List.append_assoc, ← List.append_nil longer.text] at same
    have whole := element.text_unique longer same (stops.cons (v ++ rest))
      (longer.stops_of_ended (Scanner.next_nil _))
    rw [whole] at same
    cases List.append_cancel_left same
  · have stops' : other.Stops (c' :: v') := by
      rcases next with rfl | ⟨rfl, -⟩
      · exact other.stops_close
      · exact other.stops_comma
    rw [element.text_unique other same stops stops'] at same
    cases List.append_cancel_left same
    exact next

/-! ## Where a symbol gets stuck -/

/-- The characters in front open the symbol, and no longer do with the first of the rest. -/
structure Stuck (symbol : Symbol) (front rest : List Char) : Prop where
  opens : Opens symbol front
  blocked : Scanner.Next (fun c => ¬Opens symbol (front ++ [c])) rest

theorem stuck_complete (list : Phrase .list) (rest : List Char) : Stuck .list list.text rest := by
  refine ⟨⟨list, List.prefix_rfl⟩, ?_⟩
  intro c _ ⟨longer, after, same⟩
  rw [List.append_assoc, ← List.append_nil longer.text] at same
  have whole := list.text_unique longer same (list.list_stops _) (longer.list_stops _)
  rw [whole] at same
  cases List.append_cancel_left same

theorem stuck_refused (other : Scanner.Next (· ≠ '(') cs) : Stuck .list [] cs :=
  ⟨opens_nil .list, fun c first opens => other c first (opens_parens.mp opens).1⟩

theorem Stuck.parens (stuck : Stuck .tail front rest) : Stuck .list ('(' :: front) rest :=
  ⟨opens_parens.mpr ⟨rfl, stuck.opens⟩,
    fun c first opens => stuck.blocked c first (opens_parens.mp opens).2⟩

theorem next_append_singleton {condition : Char → Prop} (holds : Scanner.Next condition (front ++ rest))
    (first : c ∈ rest.head?) : Scanner.Next condition (front ++ [c]) := by
  cases front with
  | nil =>
      exact Scanner.next_cons.mpr (holds c first)
  | cons d front => exact Scanner.next_cons.mpr (Scanner.next_cons.mp holds)

theorem Stuck.nested (stuck : Stuck .list front rest) (ended : Ended (front ++ rest)) :
    Stuck .element front rest :=
  ⟨stuck.opens.nested, fun c first opens =>
    stuck.blocked c first (opens.list (next_append_singleton ended first))⟩

/-- A tail gets stuck in an element, unless it is closed or the element is complete. -/
theorem Stuck.missing (stuck : Stuck .element front rest)
    (unclosed : Scanner.Next (· ≠ ')') (front ++ rest))
    (incomplete : ∀ (element : Phrase .element) (after : List Char),
      front ++ rest = element.text ++ after → ¬element.Stops after) : Stuck .tail front rest := by
  refine ⟨stuck.opens.last, fun c first opens => ?_⟩
  obtain ⟨after, rfl⟩ := List.head?_eq_some_iff.mp first
  rcases opens.tail_cases with closed | element | ⟨element, d, v, same, next⟩
  · have head := next_append_singleton unclosed first
    obtain ⟨d, others, begins⟩ :=
      List.exists_cons_of_ne_nil (List.append_ne_nil_of_right_ne_nil front (List.cons_ne_nil c []))
    rw [begins] at closed head
    exact Scanner.next_cons.mp head (List.cons_prefix_cons.mp closed).1
  · exact stuck.blocked c first element
  · have whole : front ++ c :: after = element.text ++ d :: (v ++ after) := by
      rw [← List.singleton_append, ← List.append_assoc, same, List.append_assoc, List.cons_append]
    apply incomplete element (d :: (v ++ after)) whole
    rcases next with rfl | ⟨rfl, -⟩
    · exact element.stops_close
    · exact element.stops_comma

theorem stuck_unseparated (element : Phrase .element) (stops : element.Stops rest)
    (unclosed : Scanner.Next (· ≠ ')') rest) (other : Scanner.Next (· ≠ ',') rest) :
    Stuck .tail element.text rest := by
  refine ⟨Opens.last ⟨element, List.prefix_rfl⟩, fun c first opens => ?_⟩
  obtain ⟨after, rfl⟩ := List.head?_eq_some_iff.mp first
  rcases opens.after_element (stops.cons []) with close | ⟨comma, -⟩
  · exact unclosed c first close
  · exact other c first comma

theorem Stuck.later (stuck : Stuck .tail front rest) (element : Phrase .element) :
    Stuck .tail (element.text ++ ',' :: front) rest := by
  refine ⟨stuck.opens.more element, fun c first opens => ?_⟩
  rw [List.append_assoc] at opens
  rcases opens.after_element element.stops_comma with close | ⟨-, later⟩
  · exact absurd close (by decide)
  · exact stuck.blocked c first later

end PegForest.NestedList
