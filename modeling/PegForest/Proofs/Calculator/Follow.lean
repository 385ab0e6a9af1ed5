import PegForest.Proofs.Calculator.Take
import PegForest.Proofs.Reading.Basic

/-!
# The grammar takes phrases

The reading of a rule follows its taker: where the taker takes a phrase, the reading matches the
tokens of the phrase and plants its tree, and where the taker refuses, the reading fails.

A chain is where the two differ in shape.  The reading first lists the operand and, for each
operator, a marked tree over the operator and its right operand; only then are the marks resolved.
The taker has the tree of the whole at every time.  Resolving the marks one after another goes
through the same trees.
-/

set_option autoImplicit false

namespace PegForest.Calculator

variable {kinds : Array TokenKind} {cursor : Nat} {token : TokenKind} {ts front : List TokenKind}

/-! ## Places -/

def At (kinds : Array TokenKind) (cursor : Nat) (ts : List TokenKind) : Prop :=
  ∃ before, kinds.toList = before ++ ts ∧ before.length = cursor

theorem At.size (place : At kinds cursor ts) : kinds.size = cursor + ts.length := by
  obtain ⟨before, whole, rfl⟩ := place
  rw [← Array.length_toList, whole, List.length_append]

theorem At.append (place : At kinds cursor (front ++ ts)) : At kinds (cursor + front.length) ts := by
  obtain ⟨before, whole, rfl⟩ := place
  exact ⟨before ++ front, by rw [whole, List.append_assoc], List.length_append⟩

theorem At.tail (place : At kinds cursor (token :: ts)) : At kinds (cursor + 1) ts := by
  have later : At kinds cursor ([token] ++ ts) := place
  exact later.append

theorem At.head (place : At kinds cursor ts) : kinds[cursor]? = ts.head? := by
  obtain ⟨before, whole, rfl⟩ := place
  rw [← Array.getElem?_toList, whole]
  cases ts with
  | nil => simp
  | cons token ts => simp

theorem At.peek (place : At kinds cursor ts) :
    Window.peek? ⟨kinds, kinds.size⟩ cursor = ts.head? := by
  have size := place.size
  unfold Window.peek?
  cases ts with
  | nil =>
      rw [if_neg (by simp [size])]
      rfl
  | cons token ts => rw [if_pos (by simp [size]), place.head]

/-! ## Single tokens -/

theorem same_natural (a b : TokenKind) : Comparator.same .natural a b = decide (a = b) := by
  cases a <;> cases b <;> rfl

abbrev readToken (kinds : Array TokenKind) (expected : TokenKind) : Reading Tag :=
  .one ⟨kinds, kinds.size⟩ ((AtomClass.exactly expected).test .natural)

theorem readToken_nil (place : At kinds cursor []) (expected : TokenKind) (refs : List Backref) :
    readToken kinds expected refs cursor = .ok (.failed cursor) :=
  Reading.one_of_end place.peek refs

theorem readToken_cons (place : At kinds cursor (token :: ts)) (expected : TokenKind)
    (refs : List Backref) :
    readToken kinds expected refs cursor =
      .ok (if token = expected then .matched (cursor + 1) [] [] else .failed cursor) := by
  have tested : (AtomClass.exactly expected).test .natural token = .ok (decide (token = expected)) := by
    rw [AtomClass.test, same_natural]
  rw [readToken, Reading.one_of_peek place.peek tested]
  simp

theorem readToken_same (place : At kinds cursor (token :: ts)) (refs : List Backref) :
    readToken kinds token refs cursor = .ok (.matched (cursor + 1) [] []) := by
  rw [readToken_cons place, if_pos rfl]

theorem head_ne {expected : TokenKind} (other : ∀ rest, ts = expected :: rest → False) :
    ts.head? ≠ some expected := by
  intro same
  obtain ⟨rest, rfl⟩ := List.head?_eq_some_iff.mp same
  exact other rest rfl

theorem readToken_other {expected : TokenKind} (place : At kinds cursor ts)
    (other : ts.head? ≠ some expected) (refs : List Backref) :
    readToken kinds expected refs cursor = .ok (.failed cursor) := by
  cases ts with
  | nil => exact readToken_nil place expected refs
  | cons token ts =>
      rw [readToken_cons place, if_neg]
      rintro rfl
      exact other rfl

theorem readToken_andThen (place : At kinds cursor (token :: ts)) (second : Reading Tag)
    (refs : List Backref) :
    ((readToken kinds token).andThen second) refs cursor = second refs (cursor + 1) := by
  rw [Reading.andThen_of_matched (readToken_same place refs)]
  exact Reading.resume_nil second refs (cursor + 1)

theorem readToken_andThen_other {expected : TokenKind} (place : At kinds cursor ts)
    (other : ts.head? ≠ some expected) (second : Reading Tag) (refs : List Backref) :
    ((readToken kinds expected).andThen second) refs cursor = .ok (.failed cursor) :=
  Reading.andThen_of_failed (readToken_other place other refs)

theorem sequence_token (place : At kinds cursor (token :: ts)) (second : Reading Tag)
    (refs : List Backref) :
    Reading.sequence [readToken kinds token, second] refs cursor = second refs (cursor + 1) := by
  rw [Reading.sequence, Reading.sequence, Reading.sequence, Reading.andThen_succeed]
  exact readToken_andThen place second refs

theorem sequence_token_other {expected : TokenKind} (place : At kinds cursor ts)
    (other : ts.head? ≠ some expected) (second : Reading Tag) (refs : List Backref) :
    Reading.sequence [readToken kinds expected, second] refs cursor = .ok (.failed cursor) :=
  readToken_andThen_other place other _ refs

/-! ## Following a taker -/

variable {k l : Level} {bound : Nat}

inductive Reads (kinds : Array TokenKind) (cursor : Nat) :
    Except Fault (Outcome Tag) → Option (Phrase l × List TokenKind) → Prop where
  | matched {phrase : Phrase l} {rest : List TokenKind} (place : At kinds (cursor + phrase.length) rest) :
      Reads kinds cursor (.ok (.matched (cursor + phrase.length) [phrase.tree cursor] []))
        (some (phrase, rest))
  | failed (offset : Nat) : Reads kinds cursor (.ok (.failed offset)) none

/-- The reading does what the taker does, where fewer than `bound` tokens are left. -/
def Follows (kinds : Array TokenKind) (bound : Nat) (reading : Reading Tag) (taker : Taker l) : Prop :=
  ∀ refs cursor ts, At kinds cursor ts → ts.length < bound →
    Reads kinds cursor (reading refs cursor) (taker ts)

theorem Follows.cases {reading : Reading Tag} {taker : Taker l}
    (follows : Follows kinds bound reading taker) (refs : List Backref) (place : At kinds cursor ts)
    (short : ts.length < bound) :
    (∃ phrase rest, reading refs cursor =
        .ok (.matched (cursor + phrase.length) [phrase.tree cursor] []) ∧
      taker ts = some (phrase, rest) ∧ At kinds (cursor + phrase.length) rest) ∨
    ∃ offset, reading refs cursor = .ok (.failed offset) ∧ taker ts = none := by
  have reads := follows refs cursor ts place short
  generalize reading refs cursor = read at reads
  generalize taker ts = taken at reads
  cases reads with
  | @matched phrase rest place' => exact .inl ⟨phrase, rest, rfl, rfl, place'⟩
  | failed offset => exact .inr ⟨offset, rfl, rfl⟩

/-! ## Chains -/

inductive Bitten (kinds : Array TokenKind) (start : Nat) (left : Phrase l) :
    Except Fault (Outcome Tag) → Option (Phrase l × List TokenKind) → Prop where
  | matched {mark : MarkedTree Tag} {phrase : Phrase l} {rest : List TokenKind}
      (place : At kinds (start + phrase.length) rest) (longer : left.length < phrase.length)
      (marked : mark.bookmark = true)
      (adopts : (mark.precede [left.tree start]).resolve start = phrase.tree start)
      (ends : (phrase.tree start).stop = start + phrase.length) :
      Bitten kinds start left (.ok (.matched (start + phrase.length) [mark] [])) (some (phrase, rest))
  | failed (offset : Nat) : Bitten kinds start left (.ok (.failed offset)) none

def Bites (kinds : Array TokenKind) (bound : Nat) (bite : Reading Tag) (step : Phrase l → Taker l) :
    Prop :=
  ∀ refs start left ts, At kinds (start + left.length) ts → ts.length < bound →
    Bitten kinds start left (bite refs (start + left.length)) (step left ts)

/-- What the loop of a chain lists, next to what the taker has grown to. -/
inductive Grown (kinds : Array TokenKind) (start : Nat) (left : Phrase l) :
    Except Fault (Outcome Tag) → Phrase l × List TokenKind → Prop where
  | intro {phrase : Phrase l} {rest : List TokenKind} {marks : List (MarkedTree Tag)}
      (place : At kinds (start + phrase.length) rest)
      (adopted : MarkedTree.promoteOnto start [left.tree start] marks = [phrase.tree start])
      (ends : marks = [] ∧ phrase = left ∨ marks.any MarkedTree.bookmark = true ∧
        (phrase.tree start).stop = start + phrase.length) :
      Grown kinds start left (.ok (.matched (start + phrase.length) marks [])) (phrase, rest)

theorem Grown.stays {start : Nat} {left : Phrase l} (place : At kinds (start + left.length) ts) :
    Grown kinds start left (.ok (.matched (start + left.length) [] [])) (left, ts) :=
  .intro place rfl (.inl ⟨rfl, rfl⟩)

theorem Bites.greedy {bite : Reading Tag} {step : Phrase l → Taker l}
    (bites : Bites kinds bound bite step) (rounds : Nat) :
    ∀ refs start left ts, At kinds (start + left.length) ts → ts.length < bound →
      ts.length ≤ rounds →
      Grown kinds start left
        (bite.greedy (.stop .exhausted) (rounds + 1) refs (start + left.length))
        (extend step rounds left ts) := by
  -- A bite takes at least one token, so there are never more rounds than tokens.
  induction rounds with
  | zero =>
      intro refs start left ts place short enough
      have bitten := bites refs start left ts place short
      simp only [Reading.greedy]
      generalize bite refs (start + left.length) = read at bitten
      generalize step left ts = result at bitten
      cases bitten with
      | matched place' longer _ _ _ =>
          have size := place.size
          have size' := place'.size
          omega
      | failed offset => exact .stays place
  | succ rounds ih =>
      intro refs start left ts place short enough
      have bitten := bites refs start left ts place short
      rw [extend]
      unfold Reading.greedy
      generalize bite refs (start + left.length) = read at bitten
      generalize step left ts = result at bitten
      cases bitten with
      | @matched mark phrase rest place' longer marked adopts ends =>
          have size := place.size
          have size' := place'.size
          have grown := ih (refs ++ []) start phrase rest place' (by omega) (by omega)
          simp only [Fault.ok_bind, if_neg (show start + phrase.length ≠ start + left.length by omega),
            Reading.resume]
          generalize bite.greedy (.stop .exhausted) (rounds + 1) (refs ++ [])
            (start + phrase.length) = read at grown
          generalize extend step rounds phrase rest = result at grown
          cases grown with
          | intro place'' adopted ends' =>
              refine .intro place'' ?_ ?_
              · rw [List.singleton_append, MarkedTree.promoteOnto, if_pos marked, adopts, adopted]
              · refine .inr ⟨by simp [marked], ?_⟩
                rcases ends' with ⟨-, rfl⟩ | ⟨-, ends'⟩
                · exact ends
                · exact ends'
      | failed offset => exact .stays place

theorem At.left (place : At kinds cursor ts) :
    Window.left ⟨kinds, kinds.size⟩ cursor = ts.length := by
  have size := place.size
  show kinds.size - cursor = ts.length
  omega

theorem follows_chain {reading bite : Reading Tag} {operand : Taker k} {wrap : Phrase k → Phrase l}
    {step : Phrase l → Taker l} (follows : Follows kinds bound reading operand)
    (length : ∀ phrase, (wrap phrase).length = phrase.length)
    (tree : ∀ phrase start, (wrap phrase).tree start = phrase.tree start)
    (bites : Bites kinds bound bite step) :
    Follows kinds bound
      (.promote (.sequence [reading, fun refs cursor =>
        bite.greedy (.stop .exhausted) (Window.left ⟨kinds, kinds.size⟩ cursor + 1) refs cursor]))
      (takeChain operand wrap step) := by
  intro refs cursor ts place short
  simp only [Reading.promote, Reading.building, Reading.sequence, Reading.andThen_succeed]
  rcases follows.cases refs place short with ⟨phrase, rest, read, taken, place'⟩ | ⟨offset, read, taken⟩
  · have size := place.size
    have size' := place'.size
    have grown := bites.greedy rest.length (refs ++ []) cursor (wrap phrase) rest
      (by rwa [length]) (by omega) (Nat.le_refl _)
    rw [length] at grown
    simp only [Reading.andThen, read, Fault.ok_bind, Reading.resume, place'.left, takeChain, taken,
      Option.map_some]
    generalize bite.greedy (.stop .exhausted) (rest.length + 1) (refs ++ [])
      (cursor + phrase.length) = outcome at grown
    generalize extend step rest.length (wrap phrase) rest = result at grown
    cases grown with
    | @intro grown rest' marks place'' adopted ends =>
        rw [tree] at adopted
        have promoted : MarkedTree.promoteAll cursor (cursor + grown.length)
            (phrase.tree cursor :: marks) = [grown.tree cursor] := by
          apply MarkedTree.promoteAll_marks (phrase.bookmark_tree cursor) adopted
          exact ends.imp And.left id
        simp only [Fault.ok_bind, Fault.pure_eq_ok, Outcome.after, List.singleton_append, promoted]
        exact .matched place''
  · simp only [Reading.andThen, read, Fault.ok_bind, Fault.pure_eq_ok, takeChain, taken,
      Option.map_none]
    exact .failed offset

/-! ## Operators -/

theorem bites_suffix (bound : Nat) :
    Bites kinds bound
      (.choice [.node (some .increment) true (readToken kinds .increment),
        .node (some .decrement) true (readToken kinds .decrement)])
      takeSuffix := by
  intro refs start left ts place _
  rw [Reading.choice]
  unfold takeSuffix
  split
  · next rest =>
      rw [Reading.firstOf_of_matched
        (Reading.node_of_matched (readToken_same place refs) (some .increment) true)]
      have length : left.increment.length = left.length + 1 := by
        simp [Phrase.length, Phrase.tokens]
      rw [Nat.add_assoc, ← length]
      have place' := place.tail
      rw [Nat.add_assoc, ← length] at place'
      exact .matched place' (by omega) rfl rfl rfl
  · next rest =>
      rw [Reading.firstOf_of_failed
        (Reading.node_of_failed (readToken_other place (by simp) refs) (some .increment) true),
        Reading.firstOf_of_matched
          (Reading.node_of_matched (readToken_same place refs) (some .decrement) true)]
      have length : left.decrement.length = left.length + 1 := by
        simp [Phrase.length, Phrase.tokens]
      rw [Nat.add_assoc, ← length]
      have place' := place.tail
      rw [Nat.add_assoc, ← length] at place'
      exact .matched place' (by omega) rfl rfl rfl
  · next noIncrement noDecrement =>
      rw [Reading.firstOf_of_failed
        (Reading.node_of_failed (readToken_other place (head_ne noIncrement) refs) (some .increment)
          true),
        Reading.firstOf_of_failed
          (Reading.node_of_failed (readToken_other place (head_ne noDecrement) refs)
            (some .decrement) true)]
      exact .failed _

abbrev readOperator (kinds : Array TokenKind) (operator : Operator l k) (right : Reading Tag) :
    Reading Tag :=
  .node (some operator.tag) true (.sequence [readToken kinds operator.token, right])

theorem readOperator_other {operator : Operator l k} (place : At kinds cursor ts)
    (other : ts.head? ≠ some operator.token) (right : Reading Tag) (refs : List Backref) :
    readOperator kinds operator right refs cursor = .ok (.failed cursor) :=
  Reading.node_of_failed (sequence_token_other place other right refs) _ true

/-- Where an operator stands, its right operand decides. -/
theorem readOperator_same {operator : Operator l k} {right : Reading Tag} {taker : Taker k}
    (follows : Follows kinds bound right taker) {start : Nat} {left : Phrase l}
    (place : At kinds (start + left.length) (operator.token :: ts)) (short : ts.length < bound)
    (refs : List Backref) :
    Bitten kinds start left (readOperator kinds operator right refs (start + left.length))
      ((taker ts).map fun taken => (operator.build left taken.1, taken.2)) := by
  have sequenced := sequence_token place right refs
  rcases follows.cases refs place.tail short with ⟨operand, rest, read, taken, place'⟩ |
    ⟨offset, read, taken⟩
  · have length := operator.length_build left operand
    rw [read] at sequenced
    rw [readOperator, Reading.node_of_matched sequenced, taken, Option.map_some]
    have next : start + left.length + 1 + operand.length =
        start + (operator.build left operand).length := by omega
    rw [next] at place' ⊢
    refine .matched place' (by omega) rfl ?_ ?_
    · rw [operator.tree, List.map_singleton, operand.unmark_tree]
      rfl
    · rw [operator.tree]
      rfl
  · rw [read] at sequenced
    rw [readOperator, Reading.node_of_failed sequenced, taken]
    exact .failed offset

/-- The first of several readings decides, where the others fail. -/
theorem Bitten.firstOf {reading : Reading Tag} {others : List (Reading Tag)} {refs : List Backref}
    {start : Nat} {left : Phrase l} {taken : Option (Phrase l × List TokenKind)}
    (bitten : Bitten kinds start left (reading refs (start + left.length)) taken)
    (fail : ∀ offset, ∃ offset', Reading.firstOf offset others refs (start + left.length) =
      .ok (.failed offset')) (offset : Nat) :
    Bitten kinds start left (Reading.firstOf offset (reading :: others) refs (start + left.length))
      taken := by
  generalize found : reading refs (start + left.length) = read at bitten
  cases bitten with
  | matched place longer marked adopts ends =>
      rw [Reading.firstOf_of_matched found]
      exact .matched place longer marked adopts ends
  | failed furthest =>
      obtain ⟨offset', failed⟩ := fail (max offset furthest)
      rw [Reading.firstOf_of_failed found, failed]
      exact .failed offset'

theorem bites_binary {first second : Operator l k} {right : Reading Tag} {taker : Taker k}
    (follows : Follows kinds bound right taker) (apart : second.token ≠ first.token) :
    Bites kinds bound
      (.choice [readOperator kinds first right, readOperator kinds second right])
      (takeBinary first second taker) := by
  intro refs start left ts place short
  rw [Reading.choice]
  cases ts with
  | nil =>
      rw [Reading.firstOf_of_failed (readOperator_other place (by simp) right refs),
        Reading.firstOf_of_failed (readOperator_other place (by simp) right refs)]
      exact .failed _
  | cons token ts =>
      rw [List.length_cons] at short
      rw [takeBinary]
      by_cases isFirst : token = first.token
      · subst isFirst
        rw [if_pos rfl]
        apply (readOperator_same follows place (by omega) refs).firstOf
        intro offset
        rw [Reading.firstOf_of_failed
          (readOperator_other place (by simpa using apart.symm) right refs)]
        exact ⟨_, rfl⟩
      · rw [if_neg isFirst,
          Reading.firstOf_of_failed (readOperator_other place (by simpa using isFirst) right refs)]
        by_cases isSecond : token = second.token
        · subst isSecond
          rw [if_pos rfl]
          apply (readOperator_same follows place (by omega) refs).firstOf
          intro offset
          exact ⟨_, rfl⟩
        · rw [if_neg isSecond, Reading.firstOf_of_failed
            (readOperator_other place (by simpa using isSecond) right refs)]
          exact .failed _

/-! ## Levels -/

section Levels

variable {call : Rule → Reading Tag} {sum : Taker .sum} {signed : Taker .signed}

theorem Reads.firstOf_last {reading : Reading Tag} {refs : List Backref}
    {taken : Option (Phrase l × List TokenKind)} (reads : Reads kinds cursor (reading refs cursor) taken)
    (offset : Nat) : Reads kinds cursor (Reading.firstOf offset [reading] refs cursor) taken := by
  generalize found : reading refs cursor = read at reads
  cases reads with
  | matched place =>
      rw [Reading.firstOf_of_matched found]
      exact .matched place
  | failed furthest =>
      rw [Reading.firstOf_of_failed found]
      exact .failed _

theorem reads_parens (follows : Follows kinds bound (call .expression) sum)
    (place : At kinds cursor (.leftParen :: ts)) (short : ts.length < bound) (refs : List Backref) :
    Reads kinds cursor
      (((readToken kinds .leftParen).andThen
        ((call .expression).andThen (readToken kinds .rightParen))) refs cursor)
      (takePrimary sum (.leftParen :: ts)) := by
  rw [readToken_andThen place, takePrimary]
  rcases follows.cases refs place.tail short with ⟨inner, rest, read, taken, place'⟩ |
    ⟨offset, read, taken⟩
  · rw [Reading.andThen_of_matched read, Reading.resume, taken]
    split
    · next inner' rest' same =>
        cases same
        rw [readToken_same place']
        have length : inner.parens.length = 1 + inner.length + 1 := by
          simp only [Phrase.length, Phrase.tokens, List.length_cons, List.length_append,
            List.length_nil]
          omega
        have next : cursor + 1 + inner.length + 1 = cursor + inner.parens.length := by omega
        have behind := place'.tail
        rw [next] at behind ⊢
        exact .matched behind
    · next unclosed =>
        have other : rest.head? ≠ some .rightParen := by
          apply head_ne
          rintro rest' rfl
          exact unclosed inner rest' rfl
        rw [readToken_other place' other]
        exact .failed _
  · rw [Reading.andThen_of_failed read, taken]
    exact .failed offset

theorem follows_primary (follows : Follows kinds bound (call .expression) sum) :
    Follows kinds (bound + 1)
      ((primary id : Matcher TokenKind Tag Rule).reading .natural ⟨kinds, kinds.size⟩ call)
      (takePrimary sum) := by
  intro refs cursor ts place short
  show Reads kinds cursor (Reading.firstOf cursor
    [.node (some .number) false (readToken kinds .number),
      .node (some .name) false (readToken kinds .ident),
      (readToken kinds .leftParen).andThen ((call .expression).andThen
        ((readToken kinds .rightParen).andThen .succeed))] refs cursor) _
  rw [Reading.andThen_succeed]
  unfold takePrimary
  split
  · next rest =>
      rw [Reading.firstOf_of_matched
        (Reading.node_of_matched (readToken_same place refs) (some .number) false)]
      exact @Reads.matched _ kinds cursor .number rest place.tail
  · next rest =>
      rw [Reading.firstOf_of_failed
          (Reading.node_of_failed (readToken_other place (by simp) refs) (some .number) false),
        Reading.firstOf_of_matched
          (Reading.node_of_matched (readToken_same place refs) (some .name) false)]
      exact @Reads.matched _ kinds cursor .name rest place.tail
  · next rest =>
      rw [List.length_cons] at short
      rw [Reading.firstOf_of_failed
          (Reading.node_of_failed (readToken_other place (by simp) refs) (some .number) false),
        Reading.firstOf_of_failed
          (Reading.node_of_failed (readToken_other place (by simp) refs) (some .name) false)]
      exact (reads_parens follows place (by omega) refs).firstOf_last _
  · next noNumber noName noParen =>
      rw [Reading.firstOf_of_failed
          (Reading.node_of_failed (readToken_other place (head_ne noNumber) refs) (some .number) false),
        Reading.firstOf_of_failed
          (Reading.node_of_failed (readToken_other place (head_ne noName) refs) (some .name) false),
        Reading.firstOf_of_failed (readToken_andThen_other place (head_ne noParen) _ refs)]
      exact .failed _

theorem follows_stepped (follows : Follows kinds bound (call .expression) sum) :
    Follows kinds (bound + 1)
      ((stepped id : Matcher TokenKind Tag Rule).reading .natural ⟨kinds, kinds.size⟩ call)
      (takeStepped sum) :=
  follows_chain (follows_primary follows) (fun _ => rfl) (fun _ _ => rfl) (bites_suffix _)

theorem follows_signed (follows : Follows kinds bound (call .expression) sum)
    (follows' : Follows kinds bound (call .signed) signed) :
    Follows kinds (bound + 1)
      ((Calculator.signed id : Matcher TokenKind Tag Rule).reading .natural ⟨kinds, kinds.size⟩ call)
      (takeSigned sum signed) := by
  intro refs cursor ts place short
  show Reads kinds cursor (Reading.firstOf cursor
    [.node (some .negate) false (.sequence [readToken kinds .minus, call .signed]),
      (stepped id : Matcher TokenKind Tag Rule).reading .natural ⟨kinds, kinds.size⟩ call] refs
      cursor) _
  have unsigned := (follows_stepped follows).cases refs place short
  unfold takeSigned
  split
  · next rest =>
      rw [List.length_cons] at short
      have sequenced := sequence_token place (call .signed) refs
      rcases follows'.cases refs place.tail (by omega) with ⟨operand, rest', read, taken, place'⟩ |
        ⟨offset, read, taken⟩
      · rw [read] at sequenced
        rw [Reading.firstOf_of_matched (Reading.node_of_matched sequenced _ _), taken,
          Option.map_some]
        have next : cursor + 1 + operand.length = cursor + operand.negate.length := by
          simp only [Phrase.length, Phrase.tokens, List.length_cons]
          omega
        rw [next] at place' ⊢
        rw [List.map_singleton, operand.unmark_tree]
        exact .matched place'
      · rw [read] at sequenced
        rw [Reading.firstOf_of_failed (Reading.node_of_failed sequenced _ _), taken]
        -- The second alternative is tried at the sign as well, but no primary begins with one.
        rcases unsigned with ⟨operand, rest', _, found, _⟩ | ⟨offset', read', _⟩
        · rw [takeStepped_minus] at found
          cases found
        · rw [Reading.firstOf_of_failed read']
          exact .failed _
  · next noMinus =>
      have failed := sequence_token_other place (head_ne noMinus) (call .signed) refs
      rw [Reading.firstOf_of_failed (Reading.node_of_failed failed _ _)]
      rcases unsigned with ⟨operand, rest', read, found, place'⟩ | ⟨offset, read, found⟩
      · rw [Reading.firstOf_of_matched read, found]
        exact @Reads.matched _ kinds cursor operand.unsigned rest' place'
      · rw [Reading.firstOf_of_failed read, found]
        exact .failed _

theorem follows_product (follows : Follows kinds bound (call .expression) sum)
    (follows' : Follows kinds bound (call .signed) signed) :
    Follows kinds (bound + 1)
      ((product id : Matcher TokenKind Tag Rule).reading .natural ⟨kinds, kinds.size⟩ call)
      (takeProduct sum signed) := by
  have operand := follows_signed follows follows'
  have bites : Bites kinds (bound + 1) _ (takeBinary .star .slash (takeSigned sum signed)) :=
    bites_binary operand (by decide)
  exact follows_chain operand (fun _ => rfl) (fun _ _ => rfl) bites

theorem follows_expression (follows : Follows kinds bound (call .expression) sum)
    (follows' : Follows kinds bound (call .signed) signed) :
    Follows kinds (bound + 1)
      ((expression id : Matcher TokenKind Tag Rule).reading .natural ⟨kinds, kinds.size⟩ call)
      (takeSum sum signed) := by
  have operand := follows_product follows follows'
  have bites : Bites kinds (bound + 1) _ (takeBinary .plus .minus (takeProduct sum signed)) :=
    bites_binary operand (by decide)
  exact follows_chain operand (fun _ => rfl) (fun _ _ => rfl) bites

end Levels

theorem follows_call (depth : Nat) (rule : Rule) :
    Follows kinds depth (grammar.callReading .natural ⟨kinds, kinds.size⟩ depth rule)
      (takeRule depth rule) := by
  induction depth generalizing rule with
  | zero =>
      intro refs cursor ts _ short
      exact absurd short (Nat.not_lt_zero _)
  | succ depth ih =>
      cases rule with
      | expression => exact follows_expression (ih .expression) (ih .signed)
      | signed => exact follows_signed (ih .expression) (ih .signed)

end PegForest.Calculator
