import PegForest.Proofs.Action.Regroup

/-!
# Nesting is listing

The parts of a sequence, of a choice and of an optional sequence stand in a list, and a list that is
too long for one combinator is split by nesting: a sequence may be one of the steps of a sequence, a
choice one of the alternatives of a choice, and an optional sequence the last step of an optional
sequence.  Flattening a matcher lists the parts of such nested lists in their place, everywhere in
the matcher.

A matcher and the flattened one do the same on every context that a session reaches, and so do a
grammar and the grammar of its flattened rules: the answer, the context with all its counters and
its log, and a fault are the same.  So matchers that are flattened to one matcher do the same.
-/

set_option autoImplicit false

namespace PegForest

variable {α τ ρ : Type}

namespace Matcher

def steps : Matcher α τ ρ → List (Matcher α τ ρ)
  | .seq steps => steps
  | step => [step]

def alternatives : Matcher α τ ρ → List (Matcher α τ ρ)
  | .choice alternatives => alternatives
  | alternative => [alternative]

/-- The steps of an optional sequence, where the last one may be an optional sequence itself. -/
def spreadLast : List (Matcher α τ ρ) → List (Matcher α τ ρ)
  | [] => []
  | [.seqOpt steps] => steps
  | step :: rest => step :: spreadLast rest

mutual

/-- The matcher with the parts of every nested list in the place of that list. -/
def flatten : Matcher α τ ρ → Matcher α τ ρ
  | .one kind => .one kind
  | .literal atoms => .literal atoms
  | .endOfInput => .endOfInput
  | .seq steps => .seq ((flattenAll steps).flatMap Matcher.steps)
  | .seqOpt steps => .seqOpt (spreadLast (flattenAll steps))
  | .choice alternatives => .choice ((flattenAll alternatives).flatMap Matcher.alternatives)
  | .nonEmpty inner => .nonEmpty inner.flatten
  | .star inner => .star inner.flatten
  | .plus inner => .plus inner.flatten
  | .opt inner => .opt inner.flatten
  | .times count inner => .times count inner.flatten
  | .timesBetween least most inner => .timesBetween least most inner.flatten
  | .ahead inner => .ahead inner.flatten
  | .notAhead inner => .notAhead inner.flatten
  | .upTo inner => .upTo inner.flatten
  | .block opening item closing => .block opening.flatten item.flatten closing.flatten
  | .list opening item separator closing =>
      .list opening.flatten item.flatten separator.flatten closing.flatten
  | .store name inner => .store name inner.flatten
  | .backref name => .backref name
  | .node tag bookmark inner => .node tag bookmark inner.flatten
  | .promote inner => .promote inner.flatten
  | .rule name => .rule name
  | .skip count => .skip count
  | .failAt offset => .failAt offset

def flattenAll : List (Matcher α τ ρ) → List (Matcher α τ ρ)
  | [] => []
  | matcher :: rest => matcher.flatten :: flattenAll rest

end

theorem alternatives_cases (matcher : Matcher α τ ρ) :
    (∃ inner, matcher = .choice inner) ∨ matcher.alternatives = [matcher] := by
  cases matcher with
  | choice inner => exact .inl ⟨inner, rfl⟩
  | _ => exact .inr rfl

theorem spreadLast_cases (steps : List (Matcher α τ ρ)) :
    (∃ front inner, steps = front ++ [.seqOpt inner] ∧ spreadLast steps = front ++ inner) ∨
      spreadLast steps = steps := by
  fun_induction spreadLast steps with
  | case1 => exact .inr rfl
  | case2 inner => exact .inl ⟨[], inner, rfl, rfl⟩
  | case3 step rest _ ih =>
      rcases ih with ⟨front, inner, rfl, spread⟩ | kept
      · exact .inl ⟨step :: front, inner, rfl, by rw [spread, List.cons_append]⟩
      · exact .inr (by rw [kept])

end Matcher

def Grammar.flatten (grammar : Grammar α τ ρ) : Grammar α τ ρ :=
  fun name => (grammar name).flatten

/-! ## What a flattened matcher does -/

section Eval

variable [Atom α] {order : Comparator α} {window : Window α}

namespace Matcher

theorem evalAll_append (call : ρ → Action τ) (front back : List (Matcher α τ ρ)) :
    evalAll order window call (front ++ back) =
      evalAll order window call front ++ evalAll order window call back := by
  induction front with
  | nil => rfl
  | cons matcher rest ih => rw [List.cons_append, evalAll, evalAll, ih, List.cons_append]

/-! ### Lists inside lists -/

theorem eval_seq_nested (call : ρ → Action τ) (front inner back : List (Matcher α τ ρ)) :
    eval order window call (.seq (front ++ .seq inner :: back)) =
      eval order window call (.seq (front ++ inner ++ back)) := by
  simp only [eval, evalAll_append]
  exact Action.sequence_nested _ _ _

variable {call call' : ρ → Action τ} {call'' : ρ → Reading τ}

section Nested

variable (calls : ∀ rule, (call rule).Realizes (call'' rule))
  (advances : ∀ rule, (call'' rule).Advances window.limit)
include calls advances

theorem eval_choice_nested (front inner back : List (Matcher α τ ρ)) :
    (eval order window call (.choice (front ++ .choice inner :: back))).Same
      (eval order window call (.choice (front ++ inner ++ back))) := by
  simp only [eval, evalAll_append]
  exact Action.choice_nested (evalAll_realizes calls advances front)
    (evalAll_realizes calls advances inner) _

theorem eval_seqOpt_nested (front inner : List (Matcher α τ ρ)) :
    (eval order window call (.seqOpt (front ++ [.seqOpt inner]))).Same
      (eval order window call (.seqOpt (front ++ inner))) := by
  simp only [eval, evalAll_append]
  exact Action.sequenceOpt_nested (evalAll_realizes calls advances front) _

end Nested

/-! ### All lists at once -/

theorem sequence_steps (call : ρ → Action τ) (matcher : Matcher α τ ρ) :
    Action.sequence (evalAll order window call matcher.steps) = matcher.eval order window call := by
  cases matcher with
  | seq steps => rfl
  | _ => exact Action.andThen_succeed _

theorem eval_seq_spread (call : ρ → Action τ) (matchers : List (Matcher α τ ρ)) :
    eval order window call (.seq (matchers.flatMap steps)) =
      eval order window call (.seq matchers) := by
  induction matchers with
  | nil => rfl
  | cons matcher rest ih =>
      simp only [eval] at ih ⊢
      rw [List.flatMap_cons, evalAll_append, Action.sequence_append, sequence_steps, ih]
      rfl

section Spread

variable (calls : ∀ rule, (call rule).Realizes (call'' rule))
  (advances : ∀ rule, (call'' rule).Advances window.limit)
include calls advances

theorem eval_choice_spread (front matchers : List (Matcher α τ ρ)) :
    (eval order window call (.choice (front ++ matchers))).Same
      (eval order window call (.choice (front ++ matchers.flatMap alternatives))) := by
  induction matchers generalizing front with
  | nil => exact .refl _
  | cons matcher rest ih =>
      rw [List.flatMap_cons]
      rcases alternatives_cases matcher with ⟨inner, rfl⟩ | single
      · have later := ih (front ++ inner)
        rw [List.append_assoc front inner (rest.flatMap alternatives)] at later
        exact (eval_choice_nested calls advances front inner rest).trans later
      · have later := ih (front ++ [matcher])
        rw [List.append_assoc, List.append_assoc] at later
        rw [single]
        exact later

theorem eval_seqOpt_spread (matchers : List (Matcher α τ ρ)) :
    (eval order window call (.seqOpt matchers)).Same
      (eval order window call (.seqOpt (spreadLast matchers))) := by
  rcases spreadLast_cases matchers with ⟨front, inner, rfl, spread⟩ | kept
  · rw [spread]
    exact eval_seqOpt_nested calls advances front inner
  · rw [kept]
    exact .refl _

end Spread

mutual

theorem eval_flatten (same : ∀ rule, (call rule).Same (call' rule))
    (calls : ∀ rule, (call rule).Realizes (call'' rule))
    (advances : ∀ rule, (call'' rule).Advances window.limit) :
    ∀ matcher : Matcher α τ ρ,
      (matcher.eval order window call).Same (matcher.flatten.eval order window call')
  | .one _ | .literal _ | .endOfInput | .backref _ | .skip _ | .failAt _ => .refl _
  | .seq steps => by
      have parts := Action.Same.sequence (evalAll_flatten same calls advances steps)
        (evalAll_realizes calls advances steps)
      exact parts.trans (.of_eq (eval_seq_spread call' (flattenAll steps)).symm)
  | .seqOpt steps => by
      have parts := Action.Same.sequenceOpt (evalAll_flatten same calls advances steps)
        (evalAll_realizes calls advances steps)
      have calls' := fun rule => (same rule).realizes (calls rule)
      exact parts.trans (eval_seqOpt_spread calls' advances (flattenAll steps))
  | .choice alternatives => by
      have parts := Action.Same.choice (evalAll_flatten same calls advances alternatives)
        (evalAll_realizes calls advances alternatives)
      have calls' := fun rule => (same rule).realizes (calls rule)
      exact parts.trans (eval_choice_spread calls' advances [] (flattenAll alternatives))
  | .nonEmpty inner => (eval_flatten same calls advances inner).nonEmpty
  | .star inner => fun builds ctx refs trees cursor =>
      (eval_flatten same calls advances inner).greedy (eval_realizes calls advances inner) (.refl _)
        _ builds ctx refs trees cursor
  | .plus inner =>
      (eval_flatten same calls advances inner).thenIfMoved (eval_realizes calls advances inner)
        fun builds ctx refs trees cursor =>
          (eval_flatten same calls advances inner).greedy (eval_realizes calls advances inner)
            (.refl _) _ builds ctx refs trees cursor
  | .opt inner => (eval_flatten same calls advances inner).optional
  | .times count inner =>
      (eval_flatten same calls advances inner).times (eval_realizes calls advances inner) count
  | .timesBetween least most inner =>
      (eval_flatten same calls advances inner).atLeast (eval_realizes calls advances inner)
        ((eval_flatten same calls advances inner).greedy (eval_realizes calls advances inner)
          (.refl _) (most - least))
        least
  | .ahead inner => (eval_flatten same calls advances inner).ahead
  | .notAhead inner => (eval_flatten same calls advances inner).notAhead
  | .upTo inner => fun builds ctx refs trees cursor =>
      (eval_flatten same calls advances inner).upTo (eval_realizes calls advances inner) _ builds ctx
        refs trees cursor
  | .block opening item closing =>
      (eval_flatten same calls advances opening).andThen (eval_realizes calls advances opening)
        fun builds ctx refs trees cursor =>
          (eval_flatten same calls advances item).blockRounds (eval_realizes calls advances item)
            (eval_flatten same calls advances closing) (eval_realizes calls advances closing) _ builds
            ctx refs trees cursor
  | .list opening item separator closing =>
      (eval_flatten same calls advances opening).andThen (eval_realizes calls advances opening)
        fun builds ctx refs trees cursor =>
          (eval_flatten same calls advances item).listRounds (eval_realizes calls advances item)
            (eval_flatten same calls advances separator) (eval_realizes calls advances separator)
            (eval_flatten same calls advances closing) (eval_realizes calls advances closing) _ builds
            ctx refs trees cursor
  | .store name inner => (eval_flatten same calls advances inner).store name
  | .node tag bookmark inner => (eval_flatten same calls advances inner).node tag bookmark
  | .promote inner => (eval_flatten same calls advances inner).promote
  | .rule name => same name

theorem evalAll_flatten (same : ∀ rule, (call rule).Same (call' rule))
    (calls : ∀ rule, (call rule).Realizes (call'' rule))
    (advances : ∀ rule, (call'' rule).Advances window.limit) :
    ∀ matchers : List (Matcher α τ ρ),
      List.Forall₂ Action.Same (evalAll order window call matchers)
        (evalAll order window call' (flattenAll matchers))
  | [] => .nil
  | matcher :: rest =>
      .cons (eval_flatten same calls advances matcher) (evalAll_flatten same calls advances rest)

end

end Matcher

theorem Grammar.call_flatten (grammar : Grammar α τ ρ) (depth : Nat) (rule : ρ) :
    (grammar.call order window depth rule).Same
      (grammar.flatten.call order window depth rule) := by
  induction depth generalizing rule with
  | zero => exact .refl _
  | succ depth ih =>
      exact Matcher.eval_flatten ih (grammar.call_realizes depth) (grammar.advances_call depth)
        (grammar rule)

theorem Grammar.run_flatten (grammar : Grammar α τ ρ) (depth : Nat) (matcher : Matcher α τ ρ) :
    (grammar.run order depth window matcher).Same
      (grammar.flatten.run order depth window matcher.flatten) :=
  Matcher.eval_flatten (grammar.call_flatten depth) (grammar.call_realizes depth)
    (grammar.advances_call depth) matcher

/-- Matchers that are flattened to one matcher, in grammars that are flattened to one grammar. -/
theorem Grammar.run_same_of_flatten {grammar grammar' : Grammar α τ ρ}
    {matcher matcher' : Matcher α τ ρ} (rules : grammar.flatten = grammar'.flatten)
    (parts : matcher.flatten = matcher'.flatten) (depth : Nat) :
    (grammar.run order depth window matcher).Same (grammar'.run order depth window matcher') := by
  have flat : (grammar.run order depth window matcher).Same
      (grammar'.flatten.run order depth window matcher'.flatten) := by
    rw [← rules, ← parts]
    exact grammar.run_flatten depth matcher
  exact flat.trans (grammar'.run_flatten depth matcher').symm

end Eval

/-! ## Matches -/

namespace Session

def Match.rewritten (attempt : Match α τ) (grammar : Grammar α τ attempt.Rule)
    (matcher : Matcher α τ attempt.Rule) : Match α τ :=
  { attempt with grammar, matcher }

variable [Atom α]

/-- How the parts of a match are grouped makes no difference: the answer is the same, with the same
context or the same fault. -/
structure Match.NestsAsListed (attempt : Match α τ) (ctx : Context τ) : Prop where
  seq : ∀ front inner back, (attempt.trying (.seq (front ++ .seq inner :: back))).run ctx =
    (attempt.trying (.seq (front ++ inner ++ back))).run ctx
  choice : ∀ front inner back, (attempt.trying (.choice (front ++ .choice inner :: back))).run ctx =
    (attempt.trying (.choice (front ++ inner ++ back))).run ctx
  seqOpt : ∀ front inner, (attempt.trying (.seqOpt (front ++ [.seqOpt inner]))).run ctx =
    (attempt.trying (.seqOpt (front ++ inner))).run ctx
  /-- Any number of such changes anywhere in the matcher and in the rules of its grammar. -/
  grammar : ∀ grammar matcher, grammar.flatten = attempt.grammar.flatten →
    matcher.flatten = attempt.matcher.flatten → (attempt.rewritten grammar matcher).run ctx =
      attempt.run ctx

variable {builds : Bool} {ctx : Context τ} {refs : List Backref} {trees : List (MarkedTree τ)}

theorem Match.run_same (attempt : Match α τ) {grammar grammar' : Grammar α τ attempt.Rule}
    {matcher matcher' : Matcher α τ attempt.Rule}
    (same : (grammar.run attempt.order attempt.depth ⟨attempt.source, attempt.limit⟩ matcher).Same
      (grammar'.run attempt.order attempt.depth ⟨attempt.source, attempt.limit⟩ matcher'))
    (tracks : ctx.Tracks refs trees builds) :
    (attempt.rewritten grammar matcher).run ctx = (attempt.rewritten grammar' matcher').run ctx := by
  by_cases inside : attempt.cursor ≤ attempt.limit ∧ attempt.limit ≤ attempt.source.size
  · have acts := same builds ctx refs trees attempt.cursor tracks
    rw [(attempt.rewritten grammar matcher).run_of_inside inside,
      (attempt.rewritten grammar' matcher').run_of_inside inside]
    exact congrArg (· >>= _) acts
  · rw [(attempt.rewritten grammar matcher).run_of_outside inside,
      (attempt.rewritten grammar' matcher').run_of_outside inside]
    rfl

/-- Nesting is the same as listing on every context that a session reaches. -/
theorem nesting_is_listing {start : Context τ} {steps : List (Step α τ)} (fresh : Fresh builds start)
    (ran : run steps start = .ok ctx) (attempt : Match α τ) : attempt.NestsAsListed ctx := by
  obtain ⟨refs, trees, tracks⟩ := tracks_run ran fresh.tracks
  refine ⟨?_, ?_, ?_, ?_⟩
  · intro front inner back
    refine attempt.run_same ?_ tracks
    exact .of_eq (Matcher.eval_seq_nested _ front inner back)
  · intro front inner back
    refine attempt.run_same ?_ tracks
    exact Matcher.eval_choice_nested (attempt.grammar.call_realizes attempt.depth)
      (attempt.grammar.advances_call attempt.depth) front inner back
  · intro front inner
    refine attempt.run_same ?_ tracks
    exact Matcher.eval_seqOpt_nested (attempt.grammar.call_realizes attempt.depth)
      (attempt.grammar.advances_call attempt.depth) front inner
  · intro grammar matcher rules parts
    exact attempt.run_same (Grammar.run_same_of_flatten rules parts attempt.depth) tracks

theorem nesting_is_listing_abandoned :
    ∃ start ctx : Context Nat, Fresh true start ∧
      run [.matching adopting, .storeRef "n" ⟨0, 1⟩] start = .ok ctx ∧
      abandoned.NestsAsListed ctx := by
  have returns : (run [.matching adopting, .storeRef "n" ⟨0, 1⟩] smallTree).toBool = true := by
    decide +kernel
  obtain ⟨ctx, ran⟩ := Fault.exists_of_toBool returns
  exact ⟨_, ctx, fresh_smallTree, ran, nesting_is_listing fresh_smallTree ran abandoned⟩

end Session

end PegForest
