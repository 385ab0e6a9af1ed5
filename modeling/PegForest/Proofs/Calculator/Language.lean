import Mathlib.Computability.Language
import PegForest.Proofs.Calculator.Phrase

/-!
# The languages of phrases

A level has the language of the tokens that its phrases derive.  Phrases associate to the left while
the grammar of expressions is written with repetitions; the languages satisfy the grammar as it is
written, where `+` is an alternative, `*` is one after another and `∗` is repetition.
-/

set_option autoImplicit false

namespace PegForest.Calculator

open scoped Computability

def Level.language (level : Level) : Language TokenKind :=
  {ts | ∃ phrase : Phrase level, phrase.tokens = ts}

def only (kind : TokenKind) : Language TokenKind :=
  {[kind]}

theorem Phrase.mem_language {level : Level} (phrase : Phrase level) :
    phrase.tokens ∈ level.language :=
  ⟨phrase, rfl⟩

/-- Languages of the levels that satisfy the grammar as it is written. -/
structure Grammatical (languages : Level → Language TokenKind) : Prop where
  sum : languages .sum =
    languages .product * ((only .plus + only .minus) * languages .product)∗
  product : languages .product =
    languages .signed * ((only .star + only .slash) * languages .signed)∗
  signed : languages .signed = only .minus * languages .signed + languages .stepped
  stepped : languages .stepped = languages .primary * (only .increment + only .decrement)∗
  primary : languages .primary =
    only .number + only .ident + only .leftParen * (languages .sum * only .rightParen)

/-- What the grammar derives at each level: its least solution. -/
structure Derivable (languages : Level → Language TokenKind) : Prop where
  grammatical : Grammatical languages
  least : ∀ others, Grammatical others → ∀ level, ∀ ts ∈ languages level, ts ∈ others level

/-! ## Repetitions -/

section Repetition

variable {α : Type} [KleeneAlgebra α]

theorem le_mul_kstar (operand step : α) : operand ≤ operand * step∗ :=
  calc
    operand = operand * 1 := (mul_one operand).symm
    _ ≤ operand * step∗ := mul_le_mul_right one_le_kstar operand

theorem mul_kstar_mul_le (operand step : α) : operand * step∗ * step ≤ operand * step∗ := by
  rw [mul_assoc]
  exact mul_le_mul_right kstar_mul_le_kstar operand

theorem eq_mul_kstar {whole operand step : α} (wraps : operand ≤ whole)
    (grows : whole * step ≤ whole)
    (least : ∀ other : α, operand ≤ other → other * step ≤ other → whole ≤ other) :
    whole = operand * step∗ := by
  apply le_antisymm
  · exact least _ (le_mul_kstar operand step) (mul_kstar_mul_le operand step)
  · exact mul_kstar_le wraps grows

end Repetition

theorem mem_once {operand step : Language TokenKind} {ts : List TokenKind} (derived : ts ∈ operand) :
    ts ∈ operand * step∗ := by
  have le := le_mul_kstar operand step
  exact le derived

theorem mem_again {operand step : Language TokenKind} {ts more : List TokenKind}
    (derived : ts ∈ operand * step∗) (another : more ∈ step) : ts ++ more ∈ operand * step∗ := by
  have le := mul_kstar_mul_le operand step
  exact le ⟨ts, derived, more, another, rfl⟩

/-! ## Phrases that grow -/

theorem Phrase.sum_induction {P : Phrase .sum → Prop} (term : ∀ operand, P (.term operand))
    (add : ∀ left right, P left → P (.add left right))
    (subtract : ∀ left right, P left → P (.subtract left right)) : ∀ phrase, P phrase
  | .term operand => term operand
  | .add left right => add left right (sum_induction term add subtract left)
  | .subtract left right => subtract left right (sum_induction term add subtract left)

theorem Phrase.product_induction {P : Phrase .product → Prop}
    (factor : ∀ operand, P (.factor operand))
    (multiply : ∀ left right, P left → P (.multiply left right))
    (divide : ∀ left right, P left → P (.divide left right)) : ∀ phrase, P phrase
  | .factor operand => factor operand
  | .multiply left right => multiply left right (product_induction factor multiply divide left)
  | .divide left right => divide left right (product_induction factor multiply divide left)

theorem Phrase.stepped_induction {P : Phrase .stepped → Prop} (plain : ∀ operand, P (.plain operand))
    (increment : ∀ operand, P operand → P (.increment operand))
    (decrement : ∀ operand, P operand → P (.decrement operand)) : ∀ phrase, P phrase
  | .plain operand => plain operand
  | .increment operand => increment operand (stepped_induction plain increment decrement operand)
  | .decrement operand => decrement operand (stepped_induction plain increment decrement operand)

theorem language_binary {k l : Level} (first second : Operator l k) {wrap : Phrase k → Phrase l}
    (wraps : ∀ operand, (wrap operand).tokens = operand.tokens)
    (induct : ∀ P : Phrase l → Prop, (∀ operand, P (wrap operand)) →
      (∀ left right, P left → P (first.build left right)) →
      (∀ left right, P left → P (second.build left right)) → ∀ phrase, P phrase) :
    l.language = k.language * ((only first.token + only second.token) * k.language)∗ := by
  apply eq_mul_kstar
  · rintro _ ⟨operand, rfl⟩
    exact ⟨wrap operand, wraps operand⟩
  · rintro _ ⟨_, ⟨left, rfl⟩, _, ⟨_, rfl | rfl, _, ⟨right, rfl⟩, rfl⟩, rfl⟩
    · exact ⟨first.build left right, first.tokens left right⟩
    · exact ⟨second.build left right, second.tokens left right⟩
  · rintro other operands steps _ ⟨phrase, rfl⟩
    refine induct (fun phrase => phrase.tokens ∈ other) ?_ ?_ ?_ phrase
    · intro operand
      rw [wraps]
      exact operands operand.mem_language
    · intro left right derived
      rw [first.tokens]
      exact steps ⟨_, derived, _, ⟨_, .inl rfl, _, right.mem_language, rfl⟩, rfl⟩
    · intro left right derived
      rw [second.tokens]
      exact steps ⟨_, derived, _, ⟨_, .inr rfl, _, right.mem_language, rfl⟩, rfl⟩

/-! ## The grammar -/

theorem language_signed :
    Level.signed.language = only .minus * Level.signed.language + Level.stepped.language := by
  apply le_antisymm
  · rintro _ ⟨phrase, rfl⟩
    cases phrase with
    | unsigned operand => exact .inr operand.mem_language
    | negate operand => exact .inl ⟨_, rfl, _, operand.mem_language, rfl⟩
  · rintro _ (⟨_, rfl, _, ⟨operand, rfl⟩, rfl⟩ | ⟨operand, rfl⟩)
    · exact ⟨.negate operand, rfl⟩
    · exact ⟨.unsigned operand, rfl⟩

theorem language_stepped :
    Level.stepped.language = Level.primary.language * (only .increment + only .decrement)∗ := by
  apply eq_mul_kstar
  · rintro _ ⟨operand, rfl⟩
    exact ⟨.plain operand, rfl⟩
  · rintro _ ⟨_, ⟨operand, rfl⟩, _, rfl | rfl, rfl⟩
    · exact ⟨.increment operand, rfl⟩
    · exact ⟨.decrement operand, rfl⟩
  · rintro other operands steps _ ⟨phrase, rfl⟩
    induction phrase using Phrase.stepped_induction with
    | plain operand => exact operands operand.mem_language
    | increment operand derived => exact steps ⟨_, derived, _, .inl rfl, rfl⟩
    | decrement operand derived => exact steps ⟨_, derived, _, .inr rfl, rfl⟩

theorem language_primary :
    Level.primary.language =
      only .number + only .ident + only .leftParen * (Level.sum.language * only .rightParen) := by
  apply le_antisymm
  · rintro _ ⟨phrase, rfl⟩
    cases phrase with
    | number => exact .inl (.inl rfl)
    | name => exact .inl (.inr rfl)
    | parens inner => exact .inr ⟨_, rfl, _, ⟨_, inner.mem_language, _, rfl, rfl⟩, rfl⟩
  · rintro _ ((rfl | rfl) | ⟨_, rfl, _, ⟨_, ⟨inner, rfl⟩, _, rfl, rfl⟩, rfl⟩)
    · exact ⟨.number, rfl⟩
    · exact ⟨.name, rfl⟩
    · exact ⟨.parens inner, rfl⟩

theorem grammatical_language : Grammatical Level.language where
  sum := language_binary .plus .minus (fun _ => rfl) fun _ => Phrase.sum_induction
  product := language_binary .star .slash (fun _ => rfl) fun _ => Phrase.product_induction
  signed := language_signed
  stepped := language_stepped
  primary := language_primary

theorem Grammatical.mem {languages : Level → Language TokenKind}
    (grammatical : Grammatical languages) {level : Level} (phrase : Phrase level) :
    phrase.tokens ∈ languages level := by
  obtain ⟨sum, product, signed, stepped, primary⟩ := grammatical
  induction phrase with
  | number =>
      rw [primary]
      exact .inl (.inl rfl)
  | name =>
      rw [primary]
      exact .inl (.inr rfl)
  | parens inner derived =>
      rw [primary]
      exact .inr ⟨_, rfl, _, ⟨_, derived, _, rfl, rfl⟩, rfl⟩
  | plain operand derived =>
      rw [stepped]
      exact mem_once derived
  | increment operand derived =>
      rw [stepped] at derived ⊢
      exact mem_again derived (.inl rfl)
  | decrement operand derived =>
      rw [stepped] at derived ⊢
      exact mem_again derived (.inr rfl)
  | unsigned operand derived =>
      rw [signed]
      exact .inr derived
  | negate operand derived =>
      rw [signed]
      exact .inl ⟨_, rfl, _, derived, rfl⟩
  | factor operand derived =>
      rw [product]
      exact mem_once derived
  | multiply left right first second =>
      rw [product] at first ⊢
      exact mem_again first ⟨_, .inl rfl, _, second, rfl⟩
  | divide left right first second =>
      rw [product] at first ⊢
      exact mem_again first ⟨_, .inr rfl, _, second, rfl⟩
  | term operand derived =>
      rw [sum]
      exact mem_once derived
  | add left right first second =>
      rw [sum] at first ⊢
      exact mem_again first ⟨_, .inl rfl, _, second, rfl⟩
  | subtract left right first second =>
      rw [sum] at first ⊢
      exact mem_again first ⟨_, .inr rfl, _, second, rfl⟩

/-- The phrases are the derivations of the grammar: their languages are its least solution. -/
theorem derivable_language : Derivable Level.language where
  grammatical := grammatical_language
  least := by
    rintro others grammatical level _ ⟨phrase, rfl⟩
    exact grammatical.mem phrase

end PegForest.Calculator
