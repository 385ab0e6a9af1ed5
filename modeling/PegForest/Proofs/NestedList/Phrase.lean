import PegForest.Language.NestedList
import PegForest.Proofs.Forest.Layout

/-!
# Phrases of nested lists

The grammar of nested lists is

    list    := '(' tail
    tail    := (element (',' element)* ','?)? ')'
    element := [a-z]+ | list

`Derives` is this grammar as it stands.  A phrase is a derivation in the same grammar, where a tail
goes from left to right: it is a closing parenthesis, or an element and a closing parenthesis, or an
element, a comma and a tail again.  A comma before the closing parenthesis is the optional one.

Words and lists are the nodes of the tree of a phrase.
-/

set_option autoImplicit false

namespace PegForest.NestedList

structure Word where
  letters : List Char
  nonempty : letters ≠ []
  lower : ∀ c ∈ letters, c.isLower = true

inductive Symbol where
  | element
  | list
  | tail

inductive Derives : Symbol → List Char → Prop where
  | word (word : Word) : Derives .element word.letters
  | nested {w : List Char} (list : Derives .list w) : Derives .element w
  | parens {w : List Char} (tail : Derives .tail w) : Derives .list ('(' :: w)
  | close : Derives .tail [')']
  | entries {first comma : List Char} {others : List (List Char)} (here : Derives .element first)
      (later : ∀ other ∈ others, Derives .element other) (optional : comma = [] ∨ comma = [',']) :
      Derives .tail (first ++ (others.map (',' :: ·)).flatten ++ comma ++ [')'])

inductive Phrase : Symbol → Type where
  | word (word : Word) : Phrase .element
  | nested (list : Phrase .list) : Phrase .element
  | parens (tail : Phrase .tail) : Phrase .list
  | close : Phrase .tail
  | last (element : Phrase .element) : Phrase .tail
  | more (element : Phrase .element) (others : Phrase .tail) : Phrase .tail

namespace Phrase

def text : {symbol : Symbol} → Phrase symbol → List Char
  | _, .word w => w.letters
  | _, .nested list => list.text
  | _, .parens tail => '(' :: tail.text
  | _, .close => [')']
  | _, .last element => element.text ++ [')']
  | _, .more element others => element.text ++ ',' :: others.text

def length {symbol : Symbol} (phrase : Phrase symbol) : Nat :=
  phrase.text.length

def words : {symbol : Symbol} → Phrase symbol → Nat
  | _, .word _ => 1
  | _, .nested list => list.words
  | _, .parens tail => tail.words
  | _, .close => 0
  | _, .last element => element.words
  | _, .more element others => element.words + others.words

def lists : {symbol : Symbol} → Phrase symbol → Nat
  | _, .word _ => 0
  | _, .nested list => list.lists
  | _, .parens tail => tail.lists + 1
  | _, .close => 0
  | _, .last element => element.lists
  | _, .more element others => element.lists + others.lists

/-- The trees of a phrase whose first character is the one at `start`: a node over every word and
over every list. -/
def trees : {symbol : Symbol} → (start : Nat) → Phrase symbol → List (MarkedTree Tag)
  | _, start, .word w => [.node (some .word) start (start + w.letters.length) false []]
  | _, start, .nested list => list.trees start
  | _, start, .parens tail =>
      [.node (some .list) start (start + (parens tail).length) false (tail.trees (start + 1))]
  | _, _, .close => []
  | _, start, .last element => element.trees start
  | _, start, .more element others =>
      element.trees start ++ others.trees (start + element.length + 1)

variable {symbol : Symbol}

theorem length_parens (tail : Phrase .tail) : (parens tail).length = tail.length + 1 :=
  List.length_cons

theorem length_last (element : Phrase .element) : (last element).length = element.length + 1 :=
  List.length_append

theorem length_more (element : Phrase .element) (others : Phrase .tail) :
    (more element others).length = element.length + 1 + others.length := by
  simp only [length, text, List.length_append, List.length_cons]
  omega

theorem sizeAll_trees (phrase : Phrase symbol) (start : Nat) :
    MarkedTree.sizeAll (phrase.trees start) = phrase.words + phrase.lists := by
  induction phrase generalizing start with
  | word w => simp [trees, words, lists, MarkedTree.size]
  | nested list ih => exact ih start
  | parens tail ih =>
      simp only [trees, words, lists, MarkedTree.sizeAll_cons, MarkedTree.sizeAll_nil,
        MarkedTree.size, ih]
      omega
  | close => simp [trees, words, lists]
  | last element ih => exact ih start
  | more element others ih ih' =>
      simp only [trees, words, lists, MarkedTree.sizeAll_append, ih, ih']
      omega

theorem unmark_trees (phrase : Phrase symbol) (start : Nat) :
    (phrase.trees start).map MarkedTree.unmark = phrase.trees start := by
  induction phrase generalizing start with
  | word w => rfl
  | nested list ih => exact ih start
  | parens tail ih => rfl
  | close => rfl
  | last element ih => exact ih start
  | more element others ih ih' => rw [trees, List.map_append, ih, ih']

theorem ascii_of_lower {c : Char} (lower : c.isLower = true) : c.toNat < 128 := by
  have range := Bool.and_eq_true_iff.mp lower
  have high : c.toNat ≤ 122 := of_decide_eq_true range.2
  omega

theorem ascii_text (phrase : Phrase symbol) : ∀ c ∈ phrase.text, c.toNat < 128 := by
  induction phrase with
  | word w =>
      intro c member
      exact ascii_of_lower (w.lower c member)
  | nested list ih => exact ih
  | parens tail ih => exact List.forall_mem_cons.mpr ⟨by decide, ih⟩
  | close => simp [text]
  | last element ih => exact List.forall_mem_append.mpr ⟨ih, by simp⟩
  | more element others ih ih' =>
      exact List.forall_mem_append.mpr ⟨ih, List.forall_mem_cons.mpr ⟨by decide, ih'⟩⟩

theorem cons_of_element (element : Phrase .element) :
    ∃ c rest, element.text = c :: rest ∧ (c.isLower = true ∨ c = '(') := by
  cases element with
  | word w =>
      obtain ⟨c, rest, letters⟩ := List.exists_cons_of_ne_nil w.nonempty
      exact ⟨c, rest, letters, .inl (w.lower c (by rw [letters]; exact List.mem_cons_self))⟩
  | nested list =>
      cases list with
      | parens tail => exact ⟨'(', tail.text, rfl, .inr rfl⟩

end Phrase

/-! ## Phrases and the grammar -/

theorem Derives.last {w : List Char} (element : Derives .element w) :
    Derives .tail (w ++ [')']) := by
  have alone := @Derives.entries w [] [] element (by simp) (.inl rfl)
  simpa using alone

theorem Derives.more {v w : List Char} (element : Derives .element v) (others : Derives .tail w) :
    Derives .tail (v ++ ',' :: w) := by
  cases others with
  | close =>
      have alone := @Derives.entries v [','] [] element (by simp) (.inr rfl)
      simpa using alone
  | @entries first comma rest here later optional =>
      have longer := @Derives.entries v comma (first :: rest) element
        (List.forall_mem_cons.mpr ⟨here, later⟩) optional
      simpa using longer

theorem Phrase.derives {symbol : Symbol} (phrase : Phrase symbol) : Derives symbol phrase.text := by
  induction phrase with
  | word w => exact .word w
  | nested _ ih => exact .nested ih
  | parens _ ih => exact .parens ih
  | close => exact .close
  | last _ ih => exact .last ih
  | more _ _ ih ih' => exact .more ih ih'

theorem exists_tail {others : List (List Char)} {comma : List Char}
    (later : ∀ other ∈ others, ∃ phrase : Phrase .element, phrase.text = other)
    (optional : comma = [] ∨ comma = [',']) (first : Phrase .element) :
    ∃ phrase : Phrase .tail,
      phrase.text = first.text ++ (others.map (',' :: ·)).flatten ++ comma ++ [')'] := by
  induction others generalizing first with
  | nil =>
      obtain rfl | rfl := optional
      · exact ⟨.last first, by simp [Phrase.text]⟩
      · exact ⟨.more first .close, by simp [Phrase.text]⟩
  | cons other rest ih =>
      rw [List.forall_mem_cons] at later
      obtain ⟨⟨second, spelled⟩, later⟩ := later
      obtain ⟨tail, spelled'⟩ := ih later second
      exact ⟨.more first tail, by simp [Phrase.text, spelled, spelled']⟩

/-- The grammar derives the texts of phrases. -/
theorem derives_iff {symbol : Symbol} {w : List Char} :
    Derives symbol w ↔ ∃ phrase : Phrase symbol, phrase.text = w := by
  constructor
  · intro derived
    induction derived with
    | word word => exact ⟨.word word, rfl⟩
    | nested _ ih =>
        obtain ⟨list, spelled⟩ := ih
        exact ⟨.nested list, spelled⟩
    | parens _ ih =>
        obtain ⟨tail, spelled⟩ := ih
        exact ⟨.parens tail, by rw [Phrase.text, spelled]⟩
    | close => exact ⟨.close, rfl⟩
    | entries _ _ optional ih ih' =>
        obtain ⟨first, spelled⟩ := ih
        rw [← spelled]
        exact exists_tail ih' optional first
  · intro ⟨phrase, spelled⟩
    rw [← spelled]
    exact phrase.derives

end PegForest.NestedList
