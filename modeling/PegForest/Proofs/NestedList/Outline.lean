import PegForest.Proofs.NestedList.Phrase

/-!
# Outlines

An outline is a nested list as such: words and lists, with no say about where they stand in a text
and whether a comma follows the last of them.  It is rendered with a comma between any two items.

A phrase has an outline, and what it derives differs from the rendering of the outline by the commas
before closing parentheses.  Every outline is that of a phrase which derives its rendering.
-/

set_option autoImplicit false

namespace PegForest.NestedList

inductive Outline where
  | word (word : Word)
  | list (items : List Outline)

namespace Outline

mutual

def render : Outline → List Char
  | word w => w.letters
  | list items => '(' :: [','].intercalate (renderAll items) ++ [')']

def renderAll : List Outline → List (List Char)
  | [] => []
  | item :: rest => item.render :: renderAll rest

end

theorem renderAll_eq_map (items : List Outline) : renderAll items = items.map render := by
  induction items with
  | nil => rfl
  | cons item rest ih => rw [renderAll, ih, List.map_cons]

end Outline

theorem joinCommas_eq (pieces : List (List Char)) :
    joinCommas pieces = [','].intercalate pieces := by
  induction pieces with
  | nil => rfl
  | cons piece rest ih =>
      cases rest with
      | nil => rw [joinCommas, List.intercalate_singleton]
      | cons next rest =>
          rw [joinCommas, ih, List.intercalate_cons_cons, List.append_assoc, List.singleton_append]
          simp

/-- The characters without the commas that stand directly before a closing parenthesis. -/
def dropCommas : List Char → List Char
  | [] => []
  | c :: rest =>
      if c = ',' ∧ rest.head? = some ')' then dropCommas rest else c :: dropCommas rest

theorem dropCommas_cons {c : Char} (other : c ≠ ',') (rest : List Char) :
    dropCommas (c :: rest) = c :: dropCommas rest :=
  if_neg fun comma => other comma.1

theorem dropCommas_comma {c : Char} (other : c ≠ ')') (rest : List Char) :
    dropCommas (',' :: c :: rest) = ',' :: dropCommas (c :: rest) := by
  rw [dropCommas, if_neg]
  simpa using other

theorem dropCommas_lower {front : List Char} (lower : ∀ c ∈ front, c.isLower = true)
    (rest : List Char) : dropCommas (front ++ rest) = front ++ dropCommas rest := by
  induction front with
  | nil => rfl
  | cons c front ih =>
      rw [List.forall_mem_cons] at lower
      have other : c ≠ ',' := by
        rintro rfl
        exact absurd lower.1 (by decide)
      rw [List.cons_append, dropCommas_cons other, ih lower.2, List.cons_append]

namespace Phrase

def outlines : {symbol : Symbol} → Phrase symbol → List Outline
  | _, .word w => [.word w]
  | _, .nested list => list.outlines
  | _, .parens tail => [.list tail.outlines]
  | _, .close => []
  | _, .last element => element.outlines
  | _, .more element others => element.outlines ++ others.outlines

/-- The rendered outlines of a phrase; those of a tail are closed. -/
def rendered : {symbol : Symbol} → Phrase symbol → List Char
  | .tail, phrase => [','].intercalate (Outline.renderAll phrase.outlines) ++ [')']
  | .list, phrase => [','].intercalate (Outline.renderAll phrase.outlines)
  | .element, phrase => [','].intercalate (Outline.renderAll phrase.outlines)

theorem exists_outline (element : Phrase .element) : ∃ outline, element.outlines = [outline] := by
  cases element with
  | word w => exact ⟨_, rfl⟩
  | nested list =>
      cases list with
      | parens tail => exact ⟨_, rfl⟩

theorem rendered_word (w : Word) : (word w).rendered = w.letters := by
  simp only [rendered, outlines, Outline.renderAll, Outline.render, List.intercalate_singleton]

theorem rendered_parens (tail : Phrase .tail) : (parens tail).rendered = '(' :: tail.rendered := by
  simp only [rendered, outlines, Outline.renderAll, Outline.render, List.intercalate_singleton,
    List.cons_append]

theorem rendered_last (element : Phrase .element) :
    (last element).rendered = element.rendered ++ [')'] :=
  rfl

theorem rendered_more_close (element : Phrase .element) :
    (more element close).rendered = element.rendered ++ [')'] := by
  simp only [rendered, outlines, List.append_nil]

theorem rendered_more (element : Phrase .element) {others : Phrase .tail}
    (nonempty : others.outlines ≠ []) :
    (more element others).rendered = element.rendered ++ ',' :: others.rendered := by
  obtain ⟨outline, alone⟩ := element.exists_outline
  obtain ⟨next, rest, further⟩ := List.exists_cons_of_ne_nil nonempty
  simp only [rendered, outlines, alone, further, Outline.renderAll, List.intercalate_cons_cons,
    List.intercalate_singleton, List.append_assoc, List.cons_append, List.nil_append]

theorem close_or_element (tail : Phrase .tail) :
    tail = close ∨ tail.outlines ≠ [] ∧ ∃ c rest, tail.text = c :: rest ∧ c ≠ ')' := by
  have open_element (element : Phrase .element) (rest : List Char) :
      ∃ c others, element.text ++ rest = c :: others ∧ c ≠ ')' := by
    obtain ⟨c, others, begins, first⟩ := element.cons_of_element
    refine ⟨c, others ++ rest, by rw [begins, List.cons_append], ?_⟩
    rintro rfl
    exact absurd first (by decide)
  cases tail with
  | close => exact .inl rfl
  | last element =>
      obtain ⟨outline, alone⟩ := element.exists_outline
      exact .inr ⟨by simp [outlines, alone], open_element element _⟩
  | more element others =>
      obtain ⟨outline, alone⟩ := element.exists_outline
      exact .inr ⟨by simp [outlines, alone], open_element element _⟩

theorem dropCommas_text {symbol : Symbol} (phrase : Phrase symbol) (rest : List Char) :
    dropCommas (phrase.text ++ rest) = phrase.rendered ++ dropCommas rest := by
  induction phrase generalizing rest with
  | word w => rw [rendered_word, text, dropCommas_lower w.lower]
  | nested list ih => exact ih rest
  | parens tail ih =>
      rw [rendered_parens, text, List.cons_append, dropCommas_cons (by decide), ih,
        List.cons_append]
  | close => exact dropCommas_cons (by decide) rest
  | last element ih =>
      rw [rendered_last, text, List.append_assoc, ih, List.append_assoc, List.singleton_append,
        dropCommas_cons (by decide), List.singleton_append]
  | more element others ih ih' =>
      rw [text, List.append_assoc, ih, List.cons_append]
      obtain rfl | ⟨nonempty, c, begins, first, other⟩ := others.close_or_element
      · rw [rendered_more_close, List.append_assoc]
        exact congrArg _ (ih' rest)
      · have later := ih' rest
        rw [first, List.cons_append] at later ⊢
        rw [rendered_more element nonempty, dropCommas_comma other, later, List.append_assoc,
          List.cons_append]

/-- A list is its outline, but for commas before closing parentheses. -/
theorem exists_items (phrase : Phrase .list) :
    ∃ items, phrase.outlines = [.list items] ∧
      dropCommas phrase.text = (Outline.list items).render := by
  cases phrase with
  | parens tail =>
      refine ⟨tail.outlines, rfl, ?_⟩
      have rendered := dropCommas_text (parens tail) []
      rw [List.append_nil, rendered_parens] at rendered
      exact rendered.trans (List.append_nil _)

end Phrase

/-! ## The phrase of an outline -/

def Phrase.before (element : Phrase .element) : Phrase .tail → Phrase .tail
  | .close => .last element
  | tail => .more element tail

namespace Outline

mutual

def phrase : Outline → Phrase .element
  | word w => .word w
  | list items => .nested (.parens (tailOf items))

def tailOf : List Outline → Phrase .tail
  | [] => .close
  | item :: rest => item.phrase.before (tailOf rest)

end

theorem before_of_nonempty (element : Phrase .element) {tail : Phrase .tail}
    (nonempty : tail.outlines ≠ []) : element.before tail = .more element tail := by
  cases tail with
  | close => exact absurd rfl nonempty
  | last next => rfl
  | more next others => rfl

theorem outlines_before (element : Phrase .element) (tail : Phrase .tail) :
    (element.before tail).outlines = element.outlines ++ tail.outlines := by
  obtain rfl | ⟨nonempty, -⟩ := tail.close_or_element
  · exact (List.append_nil _).symm
  · rw [before_of_nonempty element nonempty, Phrase.outlines]

mutual

theorem outlines_phrase : (outline : Outline) → outline.phrase.outlines = [outline]
  | word w => rfl
  | list items => by
      rw [phrase, Phrase.outlines, Phrase.outlines, outlines_tailOf items]

theorem outlines_tailOf : (items : List Outline) → (tailOf items).outlines = items
  | [] => rfl
  | item :: rest => by
      rw [tailOf, outlines_before, outlines_phrase item, outlines_tailOf rest,
        List.singleton_append]

end

theorem text_before {element : Phrase .element} {tail : Phrase .tail}
    (spelled : element.text = element.rendered) (spelled' : tail.text = tail.rendered) :
    (element.before tail).text = (element.before tail).rendered := by
  obtain rfl | ⟨nonempty, -⟩ := tail.close_or_element
  · rw [Phrase.before, Phrase.text, Phrase.rendered_last, spelled]
  · rw [before_of_nonempty element nonempty, Phrase.text, Phrase.rendered_more element nonempty,
      spelled, spelled']

mutual

theorem text_phrase : (outline : Outline) → outline.phrase.text = outline.phrase.rendered
  | word w => (Phrase.rendered_word w).symm
  | list items => by
      rw [phrase, Phrase.text, Phrase.text, text_tailOf items, ← Phrase.rendered_parens]
      rfl

theorem text_tailOf : (items : List Outline) → (tailOf items).text = (tailOf items).rendered
  | [] => rfl
  | item :: rest => text_before (text_phrase item) (text_tailOf rest)

end

theorem exists_phrase (items : List Outline) :
    ∃ phrase : Phrase .list, phrase.outlines = [.list items] ∧
      phrase.text = render (.list items) := by
  refine ⟨.parens (tailOf items), by rw [Phrase.outlines, outlines_tailOf], ?_⟩
  rw [Phrase.text, text_tailOf, Phrase.rendered, outlines_tailOf, render, List.cons_append]

end Outline

end PegForest.NestedList
