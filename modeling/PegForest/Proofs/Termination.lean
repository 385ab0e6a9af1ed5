import PegForest.Language.Calculator.Expression
import PegForest.Language.Json.Grammar
import PegForest.Language.LongString
import PegForest.Language.NestedList
import PegForest.Proofs.Action.Round

/-!
# Matching always ends

There is no bound on the rounds of a loop, and none on the depth of rule calls is needed: the bounds
that a run is given never show.  A loop goes on only from a later place than before.  A rule calls
rules only after it has consumed an atom, which is a property of the form of its grammar.  Neither
depends on what a context holds, on how atoms are compared, or on what the inner matchers are.
-/

set_option autoImplicit false

namespace PegForest

variable {α τ ρ : Type} [Atom α]

/-- Running a matcher in a grammar ends on every context and on every part of an input. -/
structure Grammar.Ends (grammar : Grammar α τ ρ) (order : Comparator α) (matcher : Matcher α τ ρ) :
    Prop where
  /-- There is a result or a misuse, which stays the same if rule calls may nest deeper; without
  rules any depth will do, and else one level more than there are atoms left. -/
  returns : ∀ (window : Window α) (depth : Nat) (ctx : Context τ) (cursor : Nat),
    window.limit ≤ window.source.size → cursor ≤ window.limit →
    ((∃ name, grammar.Uses matcher (.rule name)) → window.left cursor < depth) →
    grammar.run order depth window matcher ctx cursor ≠ .error .exhausted ∧
      ∀ deeper, depth ≤ deeper → grammar.run order deeper window matcher ctx cursor =
        grammar.run order depth window matcher ctx cursor
  /-- Loops go on for as long as they move on. -/
  loops : ∀ (window : Window α) (depth : Nat) (inner : Matcher α τ ρ) (before : Action τ)
      (round : Round τ),
    window.limit ≤ window.source.size → grammar.Uses matcher inner →
    inner.loop? order window (grammar.call order window depth) = some (before, round) →
    ∃ loop, inner.eval order window (grammar.call order window depth) = before.andThen loop ∧
      round.Drives window.limit loop
  /-- A rule does not see what rules do at the place where it is called itself. -/
  calls : ∀ (window : Window α) (depth : Nat) (name : ρ) (calls : ρ → Action τ) (ctx : Context τ)
      (cursor : Nat),
    window.limit ≤ window.source.size → cursor ≤ window.limit →
    grammar.Uses matcher (.rule name) →
    (∀ other ctx place, cursor < place → place ≤ window.limit →
      calls other ctx place = grammar.call order window depth other ctx place) →
    (grammar name).eval order window calls ctx cursor =
      grammar.call order window (depth + 1) name ctx cursor

def Fault.Misused (fault fault' : Fault) : Prop :=
  fault = fault' ∧ fault.IsMisuse

variable {grammar : Grammar α τ ρ} {order : Comparator α} {matcher : Matcher α τ ρ}

def Window.zone (window : Window α) (inside : window.limit ≤ window.source.size) (low : Nat) :
    Zone α :=
  { window with low, strict := False, inside }

omit [Atom α] in
theorem Action.Respects.ends {zone : Zone α} {action other : Action τ}
    (respects : Respects Fault.Misused Eq zone action other) {ctx : Context τ} {cursor : Nat}
    (holds : zone.Holds cursor) :
    action ctx cursor ≠ .error .exhausted ∧ other ctx cursor = action ctx cursor := by
  have concur := respects ctx ctx cursor holds rfl
  generalize action ctx cursor = answer at concur
  generalize other ctx cursor = answer' at concur
  cases concur with
  | ok answers =>
      refine ⟨nofun, ?_⟩
      cases answers with
      | matched _ _ related => rw [related]
      | failed _ related => rw [related]
  | error related =>
      obtain ⟨rfl, misuse⟩ := related
      refine ⟨?_, rfl⟩
      intro same
      exact misuse (Except.error.inj same)

theorem Grammar.loops_end (window : Window α) (depth : Nat) {inner : Matcher α τ ρ}
    {before : Action τ} {round : Round τ} (inside : window.limit ≤ window.source.size)
    (loops : inner.loop? order window (grammar.call order window depth) = some (before, round)) :
    ∃ loop, inner.eval order window (grammar.call order window depth) = before.andThen loop ∧
      round.Drives window.limit loop := by
  have forward : Calls.Forward (window.zone inside 0) (grammar.call order window depth) :=
    Grammar.call_forward id depth
  exact Matcher.eval_of_loop? id forward rfl loops

theorem Grammar.ends_of_noRule (noRule : ∀ name, ¬grammar.Uses matcher (.rule name)) :
    grammar.Ends order matcher where
  returns := by
    intro window depth ctx cursor inside within _
    let zone := window.zone inside cursor
    have respects : ∀ deeper, Action.Respects Fault.Misused Eq zone
        (grammar.run order depth window matcher) (grammar.run order deeper window matcher) := by
      intro deeper
      apply Matcher.eval_respects_same (Context.lasting_eq fun misuse => ⟨rfl, misuse⟩)
      intro part partOf
      apply Matcher.asks_eq (fun misuse => ⟨rfl, misuse⟩) id
      rintro name rfl
      exact absurd (.of_partOf partOf (.self _)) (noRule name)
    refine ⟨((respects depth).ends ⟨Nat.le_refl cursor, within⟩).1, ?_⟩
    intro deeper _
    exact ((respects deeper).ends ⟨Nat.le_refl cursor, within⟩).2
  loops := by
    intro window depth inner before round inside _ loops
    exact Grammar.loops_end window depth inside loops
  calls := by
    intro _ _ name _ _ _ _ _ uses
    exact absurd uses (noRule name)

theorem Grammar.ends_of_late (late : ∀ name, (grammar name).late = true) (matcher : Matcher α τ ρ) :
    grammar.Ends order matcher where
  returns := by
    intro window depth ctx cursor inside within enough
    -- The depth matters only where a rule is called.
    by_cases rules : ∃ name, grammar.Uses matcher (.rule name)
    · let zone := window.zone inside cursor
      have deep : zone.limit < zone.low + depth := by
        have enough' := enough rules
        have levels : window.limit < cursor + depth := by
          unfold Window.left at enough'
          omega
        exact levels
      have respects : ∀ deeper, depth ≤ deeper → Action.Respects Fault.Misused Eq zone
          (grammar.run order depth window matcher) (grammar.run order deeper window matcher) := by
        intro deeper further
        apply Matcher.eval_respects_eq (fun misuse => ⟨rfl, misuse⟩) id
        exact Grammar.call_respects_of_late late (fun misuse => ⟨rfl, misuse⟩) depth deeper zone id
          deep further
      refine ⟨((respects depth (Nat.le_refl depth)).ends ⟨Nat.le_refl cursor, within⟩).1, ?_⟩
      intro deeper further
      exact ((respects deeper further).ends ⟨Nat.le_refl cursor, within⟩).2
    · have noRule : ∀ name, ¬grammar.Uses matcher (.rule name) := by
        intro name uses
        exact rules ⟨name, uses⟩
      exact (Grammar.ends_of_noRule noRule).returns window depth ctx cursor inside within enough
  loops := by
    intro window depth inner before round inside _ loops
    exact Grammar.loops_end window depth inside loops
  calls := by
    intro window depth name calls ctx cursor inside within _ same
    let zone := window.zone inside cursor
    have respects : Action.Respects Eq Eq zone (grammar.call order window (depth + 1) name)
        ((grammar name).eval order window calls) := by
      apply Matcher.eval_respects_late _ (grammar name) (late name)
      refine ⟨fun _ => rfl, id, Grammar.call_forward id depth, ?_⟩
      -- The other calls are only made further on, where they are the same by assumption.
      intro other ctx ctx' place holds related
      rw [same other ctx' place holds.1 holds.2]
      exact Grammar.call_forward id depth other ctx ctx' place holds related
    apply (respects ctx ctx cursor ⟨Nat.le_refl cursor, within⟩ rfl).agree.symm.eq
    intro answer answer' answers
    cases answers with
    | matched _ _ related => rw [related]
    | failed _ related => rw [related]

theorem Grammar.run_enoughDepth (late : ∀ name, (grammar name).late = true)
    (matcher : Matcher α τ ρ) (rules : Nat) {window : Window α}
    (inside : window.limit ≤ window.source.size) (ctx : Context τ) {cursor : Nat}
    (within : cursor ≤ window.limit) :
    grammar.run order (enoughDepth rules window.source.size) window matcher ctx cursor ≠
      .error .exhausted := by
  have places : window.source.size + 1 ≤ enoughDepth rules window.source.size :=
    Nat.le_mul_of_pos_left _ (Nat.succ_pos rules)
  have enough : window.left cursor < enoughDepth rules window.source.size := by
    unfold Window.left
    omega
  exact ((ends_of_late late matcher).returns window _ ctx cursor inside within fun _ => enough).1

/-- Matching ends for every matcher without rules, whatever loops stand in it, and for the rules of
lists, of documents, of tokens and expressions, and of long strings. -/
theorem matching_ends :
    (∀ (α τ ρ : Type) (_ : Atom α) (grammar : Grammar α τ ρ) (order : Comparator α)
      (matcher : Matcher α τ ρ), (∀ name, ¬grammar.Uses matcher (.rule name)) →
        grammar.Ends order matcher) ∧
    (∀ order : Comparator UInt8,
      (∀ matcher ∈ [NestedList.word, NestedList.element .list, NestedList.list .list],
        NestedList.grammar.Ends order matcher) ∧
      Json.grammar.Ends order (Json.value .value) ∧
      Calculator.tokenGrammar.Ends order Calculator.tokenRun ∧
      ∀ matcher ∈ [LongString.longString, LongString.longStrings, LongString.wordOrLongString],
        LongString.grammar.Ends order matcher) ∧
    ∀ order : Comparator Calculator.TokenKind,
      ∀ name, Calculator.grammar.Ends order (Calculator.grammar name) := by
  refine ⟨?_, ?_, ?_⟩
  · intro α τ ρ _ grammar order matcher noRule
    exact Grammar.ends_of_noRule noRule
  · intro order
    refine ⟨?_, ?_, ?_, ?_⟩
    · intro matcher _
      apply Grammar.ends_of_late
      rintro ⟨⟩
      rfl
    · apply Grammar.ends_of_late
      rintro ⟨⟩
      rfl
    · exact Grammar.ends_of_noRule fun name => name.elim
    · intro matcher _
      exact Grammar.ends_of_noRule fun name => name.elim
  · intro order name
    apply Grammar.ends_of_late
    rintro ⟨⟩ <;> rfl

/-- Loops in a loop, none of which ever consumes anything. -/
def idleLoops : Matcher UInt8 Empty Empty :=
  .list (.star .endOfInput) (.plus (.opt (.upTo .endOfInput))) (.timesBetween 2 5 .endOfInput)
    (.block .endOfInput (.star (.skip 0)) (.nonEmpty .endOfInput))

theorem matching_ends_idleLoops :
    (∀ name, ¬LongString.grammar.Uses idleLoops (.rule name)) ∧
      LongString.grammar.Ends .natural idleLoops := by
  have noRule : ∀ name, ¬LongString.grammar.Uses idleLoops (.rule name) := fun name => name.elim
  exact ⟨noRule, matching_ends.1 UInt8 Empty Empty _ _ .natural idleLoops noRule⟩

end PegForest
