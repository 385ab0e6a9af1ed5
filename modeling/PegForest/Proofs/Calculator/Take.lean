import PegForest.Proofs.Calculator.Phrase

/-!
# Taking phrases off a list of tokens

A taker takes a phrase off the front of a list of tokens, or refuses.  It takes what the grammar
takes when it is read greedily and from left to right, and what it builds is a phrase, so it cannot
take anything that is not derivable.

What is left to show is that it does not miss anything.  After a phrase that is followed by a token
which cannot continue it, a taker stops exactly there.  After a phrase that is followed by anything
else it may go on, but it never stops before the end of the phrase.  The first fact is what the
second one rests on: between two operands stands an operator that cannot continue the left one, so
only the last operand can grow.
-/

set_option autoImplicit false

namespace PegForest.Calculator

/-- The phrase at the front of a list of tokens, with the tokens after it. -/
abbrev Taker (level : Level) := List TokenKind → Option (Phrase level × List TokenKind)

variable {k l : Level}

/-- Let a phrase grow at its end, at most `rounds` times. -/
def extend (step : Phrase l → Taker l) :
    (rounds : Nat) → Phrase l → List TokenKind → Phrase l × List TokenKind
  | 0, left, rest => (left, rest)
  | rounds + 1, left, rest =>
      match step left rest with
      | some (longer, rest) => extend step rounds longer rest
      | none => (left, rest)

def takeChain (operand : Taker k) (wrap : Phrase k → Phrase l) (step : Phrase l → Taker l) :
    Taker l := fun ts =>
  (operand ts).map fun taken => extend step taken.2.length (wrap taken.1) taken.2

def takeBinary (first second : Operator l k) (right : Taker k) (left : Phrase l) : Taker l
  | [] => none
  | token :: rest =>
      if token = first.token then (right rest).map fun taken => (first.build left taken.1, taken.2)
      else if token = second.token then
        (right rest).map fun taken => (second.build left taken.1, taken.2)
      else none

def takeSuffix (operand : Phrase .stepped) : Taker .stepped
  | .increment :: rest => some (.increment operand, rest)
  | .decrement :: rest => some (.decrement operand, rest)
  | _ => none

def takePrimary (sum : Taker .sum) : Taker .primary
  | .number :: rest => some (.number, rest)
  | .ident :: rest => some (.name, rest)
  | .leftParen :: rest =>
      match sum rest with
      | some (inner, .rightParen :: rest) => some (.parens inner, rest)
      | _ => none
  | _ => none

def takeStepped (sum : Taker .sum) : Taker .stepped :=
  takeChain (takePrimary sum) .plain takeSuffix

def takeSigned (sum : Taker .sum) (signed : Taker .signed) : Taker .signed
  | .minus :: rest => (signed rest).map fun taken => (.negate taken.1, taken.2)
  | ts => (takeStepped sum ts).map fun taken => (.unsigned taken.1, taken.2)

def takeProduct (sum : Taker .sum) (signed : Taker .signed) : Taker .product :=
  takeChain (takeSigned sum signed) .factor
    (takeBinary .star .slash (takeSigned sum signed))

def takeSum (sum : Taker .sum) (signed : Taker .signed) : Taker .sum :=
  takeChain (takeProduct sum signed) .term
    (takeBinary .plus .minus (takeProduct sum signed))

def Rule.level : Rule → Level
  | .expression => .sum
  | .signed => .signed

/-- The taker of a rule whose calls nest at most `depth` deep. -/
def takeRule : (depth : Nat) → (rule : Rule) → Taker rule.level
  | 0, _ => fun _ => none
  | depth + 1, .expression => takeSum (takeRule depth .expression) (takeRule depth .signed)
  | depth + 1, .signed => takeSigned (takeRule depth .expression) (takeRule depth .signed)

/-! ## What may follow a phrase -/

def Level.continues : Level → TokenKind → Bool
  | .sum, .plus | .sum, .minus => true
  | .sum, .star | .sum, .slash | .product, .star | .product, .slash => true
  | .primary, _ => false
  | _, .increment | _, .decrement => true
  | _, _ => false

def Level.Closed (level : Level) (ts : List TokenKind) : Prop :=
  ∀ token ∈ ts.head?, level.continues token = false

theorem closed_nil : l.Closed [] := by
  simp [Level.Closed]

theorem closed_cons {token : TokenKind} {ts : List TokenKind} :
    l.Closed (token :: ts) ↔ l.continues token = false := by
  simp [Level.Closed]

theorem continues_signed (token : TokenKind) :
    Level.signed.continues token = Level.stepped.continues token := by
  cases token <;> rfl

/-- What a taker has to do on lists below a length. -/
structure Recognizes (bound : Nat) (taker : Taker l) : Prop where
  sound : ∀ {ts phrase rest}, taker ts = some (phrase, rest) → ts = phrase.tokens ++ rest
  exact : ∀ (phrase : Phrase l) (rest : List TokenKind), (phrase.tokens ++ rest).length < bound →
    l.Closed rest → taker (phrase.tokens ++ rest) = some (phrase, rest)
  longest : ∀ (phrase : Phrase l) (rest : List TokenKind), (phrase.tokens ++ rest).length < bound →
    ∃ taken rest', taker (phrase.tokens ++ rest) = some (taken, rest') ∧
      phrase.length ≤ taken.length

/-! ## Chains -/

/-- A phrase comes about from another one by one step over some tokens. -/
structure Grows (k : Level) (bound : Nat) (step : Phrase l → Taker l) (left : Phrase l)
    (tail : List TokenKind) (phrase : Phrase l) : Prop where
  tokens : phrase.tokens = left.tokens ++ tail
  nonempty : tail ≠ []
  opens : ∀ rest, k.Closed (tail ++ rest)
  exact : ∀ rest, (tail ++ rest).length < bound → k.Closed rest →
    step left (tail ++ rest) = some (phrase, rest)
  longest : ∀ rest, (tail ++ rest).length < bound →
    ∃ taken rest', step left (tail ++ rest) = some (taken, rest') ∧ phrase.length ≤ taken.length

/-- The phrases of a level are operands that grew step by step. -/
structure Steps (bound : Nat) (wrap : Phrase k → Phrase l) (step : Phrase l → Taker l) : Prop where
  wraps : ∀ operand, (wrap operand).tokens = operand.tokens
  view : ∀ phrase, (∃ operand, phrase = wrap operand) ∨ ∃ left tail, Grows k bound step left tail phrase
  sound : ∀ {left ts phrase rest}, step left ts = some (phrase, rest) →
    left.tokens ++ ts = phrase.tokens ++ rest ∧ left.length ≤ phrase.length
  stops : ∀ left ts, l.Closed ts → step left ts = none
  tighter : ∀ ts, l.Closed ts → k.Closed ts

section Chains

variable {bound : Nat} {operand : Taker k} {wrap : Phrase k → Phrase l} {step : Phrase l → Taker l}

theorem extend_sound (steps : Steps bound wrap step) (rounds : Nat) (left : Phrase l)
    (ts : List TokenKind) :
    left.tokens ++ ts = (extend step rounds left ts).1.tokens ++ (extend step rounds left ts).2 ∧
      left.length ≤ (extend step rounds left ts).1.length := by
  induction rounds generalizing left ts with
  | zero => exact ⟨rfl, Nat.le_refl _⟩
  | succ rounds ih =>
      rw [extend]
      cases taken : step left ts with
      | none => exact ⟨rfl, Nat.le_refl _⟩
      | some result =>
          obtain ⟨same, longer⟩ := steps.sound taken
          obtain ⟨same', longer'⟩ := ih result.1 result.2
          exact ⟨same.trans same', Nat.le_trans longer longer'⟩

/-- Over the tokens of a phrase, a chain grows into that phrase; then it goes on. -/
theorem takeChain_reaches (recognizes : Recognizes bound operand) (steps : Steps bound wrap step)
    (phrase : Phrase l) (rest : List TokenKind) (short : (phrase.tokens ++ rest).length < bound)
    (closed : k.Closed rest) :
    ∃ rounds, rest.length ≤ rounds ∧
      takeChain operand wrap step (phrase.tokens ++ rest) = some (extend step rounds phrase rest) := by
  -- The induction is on the number of tokens; the phrase before the last step has fewer.
  induction measured : phrase.length using Nat.strongRecOn generalizing phrase rest with
  | ind count ih =>
      rcases steps.view phrase with ⟨first, rfl⟩ | ⟨left, tail, grows⟩
      · rw [steps.wraps] at short ⊢
        refine ⟨rest.length, Nat.le_refl _, ?_⟩
        rw [takeChain, recognizes.exact first rest short closed, Option.map_some]
      · obtain ⟨token, tail', rfl⟩ := List.exists_cons_of_ne_nil grows.nonempty
        have fewer : left.length < count := by
          rw [← measured, Phrase.length, Phrase.length, grows.tokens, List.length_append,
            List.length_cons]
          omega
        rw [grows.tokens, List.append_assoc] at short ⊢
        obtain ⟨rounds, enough, reached⟩ :=
          ih left.length fewer left (token :: tail' ++ rest) short (grows.opens rest) rfl
        cases rounds with
        | zero => simp at enough
        | succ rounds =>
            have short' : (token :: tail' ++ rest).length < bound := by
              rw [List.length_append] at short
              omega
            refine ⟨rounds, ?_, ?_⟩
            · simp only [List.cons_append, List.length_cons, List.length_append] at enough
              omega
            · rw [reached, extend, grows.exact rest short' closed]

theorem recognizes_takeChain (recognizes : Recognizes bound operand) (steps : Steps bound wrap step) :
    Recognizes bound (takeChain operand wrap step) where
  sound := by
    intro ts phrase rest taken
    obtain ⟨⟨first, rest'⟩, found, grown⟩ := Option.map_eq_some_iff.mp taken
    have same := (extend_sound steps rest'.length (wrap first) rest').1
    rw [grown, steps.wraps] at same
    exact (recognizes.sound found).trans same
  exact := by
    intro phrase rest short closed
    obtain ⟨rounds, -, reached⟩ :=
      takeChain_reaches recognizes steps phrase rest short (steps.tighter rest closed)
    rw [reached]
    cases rounds with
    | zero => rfl
    | succ rounds => rw [extend, steps.stops phrase rest closed]
  longest := by
    intro phrase rest short
    -- A phrase of the chain is one operand, or another phrase of it that has grown by one step.
    rcases steps.view phrase with ⟨first, rfl⟩ | ⟨left, tail, grows⟩
    · rw [steps.wraps] at short ⊢
      obtain ⟨taken, rest', found, longer⟩ := recognizes.longest first rest short
      have further := (extend_sound steps rest'.length (wrap taken) rest').2
      refine ⟨_, _, by rw [takeChain, found, Option.map_some], ?_⟩
      rw [Phrase.length, steps.wraps] at further ⊢
      exact Nat.le_trans longer further
    · obtain ⟨token, tail', rfl⟩ := List.exists_cons_of_ne_nil grows.nonempty
      rw [grows.tokens, List.append_assoc] at short ⊢
      obtain ⟨rounds, enough, reached⟩ :=
        takeChain_reaches recognizes steps left (token :: tail' ++ rest) short (grows.opens rest)
      cases rounds with
      | zero => simp at enough
      | succ rounds =>
          have short' : (token :: tail' ++ rest).length < bound := by
            rw [List.length_append] at short
            omega
          obtain ⟨taken, rest', found, longer⟩ := grows.longest rest short'
          have further := (extend_sound steps rounds taken rest').2
          refine ⟨_, _, by rw [reached, extend, found], ?_⟩
          exact Nat.le_trans longer further

end Chains

/-! ## Steps -/

section Binary

variable {bound : Nat} {first second : Operator l k} {right : Taker k} {wrap : Phrase k → Phrase l}

theorem Operator.grows {operator : Operator l k} (recognizes : Recognizes bound right)
    (taken : ∀ left rest, takeBinary first second right left (operator.token :: rest) =
      (right rest).map fun taken => (operator.build left taken.1, taken.2))
    (opens : k.continues operator.token = false) (left : Phrase l) (operand : Phrase k) :
    Grows k bound (takeBinary first second right) left (operator.token :: operand.tokens)
      (operator.build left operand) where
  tokens := operator.tokens left operand
  nonempty := List.cons_ne_nil _ _
  opens := fun rest => closed_cons.mpr opens
  exact := by
    intro rest short closed
    rw [List.cons_append, List.length_cons] at short
    rw [List.cons_append, taken, recognizes.exact operand rest (by omega) closed, Option.map_some]
  longest := by
    intro rest short
    rw [List.cons_append, List.length_cons] at short
    obtain ⟨longer, rest', found, further⟩ := recognizes.longest operand rest (by omega)
    refine ⟨operator.build left longer, rest', ?_, ?_⟩
    · rw [List.cons_append, taken, found, Option.map_some]
    · rw [operator.length_build, operator.length_build]
      omega

theorem Operator.sound {operator : Operator l k} (recognizes : Recognizes bound right)
    {left phrase : Phrase l} {ts rest : List TokenKind}
    (taken : ((right ts).map fun taken => (operator.build left taken.1, taken.2)) =
      some (phrase, rest)) :
    left.tokens ++ operator.token :: ts = phrase.tokens ++ rest ∧ left.length ≤ phrase.length := by
  obtain ⟨⟨operand, rest'⟩, found, built⟩ := Option.map_eq_some_iff.mp taken
  cases built
  constructor
  · simp [operator.tokens, recognizes.sound found]
  · rw [operator.length_build]
    omega

theorem steps_takeBinary (recognizes : Recognizes bound right) (apart : second.token ≠ first.token)
    (wraps : ∀ operand, (wrap operand).tokens = operand.tokens)
    (view : ∀ phrase, (∃ operand, phrase = wrap operand) ∨
      (∃ left operand, phrase = first.build left operand) ∨
      ∃ left operand, phrase = second.build left operand)
    (opens : k.continues first.token = false ∧ k.continues second.token = false)
    (continues : l.continues first.token = true ∧ l.continues second.token = true)
    (tighter : ∀ token, l.continues token = false → k.continues token = false) :
    Steps bound wrap (takeBinary first second right) where
  wraps := wraps
  view := by
    intro phrase
    rcases view phrase with plain | ⟨left, operand, rfl⟩ | ⟨left, operand, rfl⟩
    · exact .inl plain
    · refine .inr ⟨left, _, Operator.grows recognizes ?_ opens.1 left operand⟩
      intro left rest
      rw [takeBinary, if_pos rfl]
    · refine .inr ⟨left, _, Operator.grows recognizes ?_ opens.2 left operand⟩
      intro left rest
      rw [takeBinary, if_neg apart, if_pos rfl]
  sound := by
    intro left ts phrase rest taken
    cases ts with
    | nil => cases taken
    | cons token ts =>
        rw [takeBinary] at taken
        split at taken
        · next same =>
            rw [same]
            exact Operator.sound recognizes taken
        · split at taken
          · next same =>
              rw [same]
              exact Operator.sound recognizes taken
          · cases taken
  stops := by
    intro left ts closed
    cases ts with
    | nil => rfl
    | cons token ts =>
        rw [closed_cons] at closed
        rw [takeBinary, if_neg, if_neg]
        · rintro rfl
          rw [continues.2] at closed
          cases closed
        · rintro rfl
          rw [continues.1] at closed
          cases closed
  tighter := by
    intro ts closed token member
    exact tighter token (closed token member)

end Binary

theorem steps_takeSuffix (bound : Nat) : Steps bound Phrase.plain takeSuffix where
  wraps := fun _ => rfl
  view := by
    intro phrase
    cases phrase with
    | plain operand => exact .inl ⟨operand, rfl⟩
    | increment operand =>
        refine .inr ⟨operand, [.increment], rfl, by simp, ?_, fun _ _ _ => rfl, ?_⟩
        · intro rest
          exact closed_cons.mpr rfl
        · intro rest _
          exact ⟨_, _, rfl, Nat.le_refl _⟩
    | decrement operand =>
        refine .inr ⟨operand, [.decrement], rfl, by simp, ?_, fun _ _ _ => rfl, ?_⟩
        · intro rest
          exact closed_cons.mpr rfl
        · intro rest _
          exact ⟨_, _, rfl, Nat.le_refl _⟩
  sound := by
    intro left ts phrase rest taken
    unfold takeSuffix at taken
    split at taken
    · cases taken
      simp [Phrase.tokens, Phrase.length]
    · cases taken
      simp [Phrase.tokens, Phrase.length]
    · cases taken
  stops := by
    intro left ts closed
    unfold takeSuffix
    split
    · cases closed_cons.mp closed
    · cases closed_cons.mp closed
    · rfl
  tighter := by
    intro ts closed token member
    rfl

/-! ## Levels -/

variable {bound : Nat} {sum : Taker .sum} {signed : Taker .signed}

theorem recognizes_takePrimary (recognizes : Recognizes bound sum) :
    Recognizes (bound + 1) (takePrimary sum) := by
  have exact : ∀ (phrase : Phrase .primary) (rest : List TokenKind),
      (phrase.tokens ++ rest).length < bound + 1 →
      takePrimary sum (phrase.tokens ++ rest) = some (phrase, rest) := by
    intro phrase rest short
    cases phrase with
    | number => rfl
    | name => rfl
    | parens inner =>
        have tokens : (Phrase.parens inner).tokens ++ rest =
            .leftParen :: (inner.tokens ++ .rightParen :: rest) := by
          simp [Phrase.tokens]
        rw [tokens, List.length_cons] at short
        have found := recognizes.exact inner (.rightParen :: rest) (by omega) (closed_cons.mpr rfl)
        rw [tokens, takePrimary, found]
  refine ⟨?_, fun phrase rest short _ => exact phrase rest short, ?_⟩
  · intro ts phrase rest taken
    unfold takePrimary at taken
    split at taken
    · cases taken
      rfl
    · cases taken
      rfl
    · split at taken
      · next inner rest' found =>
          cases taken
          simp [Phrase.tokens, recognizes.sound found]
      · cases taken
    · cases taken
  · intro phrase rest short
    exact ⟨phrase, rest, exact phrase rest short, Nat.le_refl _⟩

theorem recognizes_takeStepped (recognizes : Recognizes bound sum) :
    Recognizes (bound + 1) (takeStepped sum) :=
  recognizes_takeChain (recognizes_takePrimary recognizes) (steps_takeSuffix _)

theorem takeStepped_minus (sum : Taker .sum) (rest : List TokenKind) :
    takeStepped sum (.minus :: rest) = none := rfl

theorem takeSigned_of_takeStepped {ts rest : List TokenKind} {operand : Phrase .stepped}
    (taken : takeStepped sum ts = some (operand, rest)) :
    takeSigned sum signed ts = some (.unsigned operand, rest) := by
  unfold takeSigned
  split
  · rw [takeStepped_minus] at taken
    cases taken
  · rw [taken, Option.map_some]

theorem recognizes_takeSigned (recognizes : Recognizes bound sum)
    (recognizes' : Recognizes bound signed) : Recognizes (bound + 1) (takeSigned sum signed) where
  sound := by
    intro ts phrase rest taken
    unfold takeSigned at taken
    split at taken
    · obtain ⟨⟨operand, rest'⟩, found, built⟩ := Option.map_eq_some_iff.mp taken
      cases built
      simp [Phrase.tokens, recognizes'.sound found]
    · obtain ⟨⟨operand, rest'⟩, found, built⟩ := Option.map_eq_some_iff.mp taken
      cases built
      exact (recognizes_takeStepped recognizes).sound found
  exact := by
    intro phrase rest short closed
    cases phrase with
    | unsigned operand =>
        have closed' : Level.stepped.Closed rest := by
          intro token member
          rw [← continues_signed]
          exact closed token member
        exact takeSigned_of_takeStepped
          ((recognizes_takeStepped recognizes).exact operand rest short closed')
    | negate operand =>
        rw [Phrase.tokens, List.cons_append, List.length_cons] at short
        rw [Phrase.tokens, List.cons_append, takeSigned,
          recognizes'.exact operand rest (by omega) closed, Option.map_some]
  longest := by
    intro phrase rest short
    cases phrase with
    | unsigned operand =>
        obtain ⟨taken, rest', found, longer⟩ :=
          (recognizes_takeStepped recognizes).longest operand rest short
        exact ⟨_, _, takeSigned_of_takeStepped found, longer⟩
    | negate operand =>
        rw [Phrase.tokens, List.cons_append, List.length_cons] at short
        obtain ⟨taken, rest', found, longer⟩ := recognizes'.longest operand rest (by omega)
        refine ⟨.negate taken, rest', ?_, Nat.succ_le_succ longer⟩
        rw [Phrase.tokens, List.cons_append, takeSigned, found, Option.map_some]

theorem recognizes_takeProduct (recognizes : Recognizes bound sum)
    (recognizes' : Recognizes bound signed) : Recognizes (bound + 1) (takeProduct sum signed) := by
  have operand := recognizes_takeSigned recognizes recognizes'
  apply recognizes_takeChain operand
  apply steps_takeBinary operand
  · decide
  · exact fun _ => rfl
  · intro phrase
    cases phrase with
    | factor operand => exact .inl ⟨operand, rfl⟩
    | multiply left right => exact .inr (.inl ⟨left, right, rfl⟩)
    | divide left right => exact .inr (.inr ⟨left, right, rfl⟩)
  · decide
  · decide
  · intro token
    cases token <;> decide

theorem recognizes_takeSum (recognizes : Recognizes bound sum)
    (recognizes' : Recognizes bound signed) : Recognizes (bound + 1) (takeSum sum signed) := by
  have operand := recognizes_takeProduct recognizes recognizes'
  apply recognizes_takeChain operand
  apply steps_takeBinary operand
  · decide
  · exact fun _ => rfl
  · intro phrase
    cases phrase with
    | term operand => exact .inl ⟨operand, rfl⟩
    | add left right => exact .inr (.inl ⟨left, right, rfl⟩)
    | subtract left right => exact .inr (.inr ⟨left, right, rfl⟩)
  · decide
  · decide
  · intro token
    cases token <;> decide

theorem recognizes_takeRule (depth : Nat) (rule : Rule) : Recognizes depth (takeRule depth rule) := by
  induction depth generalizing rule with
  | zero =>
      refine ⟨?_, ?_, ?_⟩
      · intro ts phrase rest taken
        cases taken
      · intro phrase rest short
        exact absurd short (Nat.not_lt_zero _)
      · intro phrase rest short
        exact absurd short (Nat.not_lt_zero _)
  | succ depth ih =>
      cases rule with
      | expression => exact recognizes_takeSum (ih .expression) (ih .signed)
      | signed => exact recognizes_takeSigned (ih .expression) (ih .signed)

/-! ## Phrases at the front -/

namespace Recognizes

variable {bound : Nat} {taker : Taker l} {ts rest : List TokenKind} {phrase : Phrase l}

theorem whole (recognizes : Recognizes bound taker) (phrase : Phrase l)
    (short : phrase.tokens.length < bound) : taker phrase.tokens = some (phrase, []) := by
  have taken := recognizes.exact phrase []
  rw [List.append_nil] at taken
  exact taken short closed_nil

theorem le_of_isPrefix (recognizes : Recognizes bound taker) (short : ts.length < bound)
    (taken : taker ts = some (phrase, rest)) {other : Phrase l} (begins : other.tokens <+: ts) :
    other.length ≤ phrase.length := by
  obtain ⟨rest', rfl⟩ := begins
  obtain ⟨longest, rest'', taken', longer⟩ := recognizes.longest other rest' short
  rw [taken] at taken'
  cases taken'
  exact longer

theorem eq_none_iff (recognizes : Recognizes bound taker) (short : ts.length < bound) :
    taker ts = none ↔ ∀ phrase : Phrase l, ¬phrase.tokens <+: ts := by
  constructor
  · rintro refused phrase ⟨rest, rfl⟩
    obtain ⟨longest, rest', taken, -⟩ := recognizes.longest phrase rest short
    rw [refused] at taken
    cases taken
  · intro none_begins
    cases taken : taker ts with
    | none => rfl
    | some result =>
        have begins : result.1.tokens <+: ts := ⟨result.2, (recognizes.sound taken).symm⟩
        exact absurd begins (none_begins result.1)

end Recognizes

end PegForest.Calculator
