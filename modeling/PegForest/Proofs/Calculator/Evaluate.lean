import Mathlib.Data.Nat.Digits.Defs
import PegForest.Proofs.Calculator.Parse
import PegForest.Proofs.Calculator.Value

/-!
# Evaluating a source

The tree that a source is parsed into is evaluated node by node, as the phrase of the source is
computed.  The lexer leaves numbers over digits only, so what is known of a number is what its
digits write in base ten, if that fits.  Hence a source evaluates to the value of its phrase over the
integers, or to nothing where some result on the way does not fit.
-/

set_option autoImplicit false

namespace PegForest.Calculator

open MarkedTree
open Text.Ascii (ofDigits isDigit digitValue bytes)

/-! ## Leaves -/

def leafBytes (tokens : Array Token) (source : Array UInt8) (place : Nat) : List UInt8 :=
  match tokens[place]? with
  | none => []
  | some token => (source.extract token.start token.stop).toList

/-- The number that ASCII digits write in base ten, the most significant one first. -/
def decimal (digits : List UInt8) : Nat :=
  Nat.ofDigits 10 (digits.reverse.map fun b => b.toNat - 48)

/-- Numbers stand for what their digits write, and names for their first binding. -/
def leavesOf (tokens : Array Token) (source : Array UInt8) (bindings : List (String × Int)) :
    Leaves where
  number place := decimal (leafBytes tokens source place)
  name place := bindings.lookup (String.ofList (leafText tokens source place))

def knownLeaf (tokens : Array Token) (source : Array UInt8) (bindings : List (String × Int)) :
    Tag → (place : Nat) → Option Int
  | .number, place => literal? (leafBytes tokens source place)
  | _, place => binding? bindings (String.ofList (leafText tokens source place))

/-! ## Evaluating phrases -/

variable {forest : Forest Tag} {tokens : Array Token} {input : Array UInt8}
  {bindings : List (String × Int)}

def Evaluates (forest : Forest Tag) (tokens : Array Token) (input : Array UInt8)
    (bindings : List (String × Int)) (tree : MarkedTree Tag) (answer : Option Int) : Prop :=
  ∀ depth id low, forest.Subtree id low tree → id < depth →
    evalNode forest tokens input bindings depth id = .ok answer

theorem evaluates_leaf {tag : Tag} (leaf : tag.operator? = none) (start length : Nat) :
    Evaluates forest tokens input bindings (Phrase.spanning tag start length [])
      (knownLeaf tokens input bindings tag start) := by
  intro depth id low subtree deep
  obtain ⟨depth, rfl⟩ := Nat.exists_eq_add_one_of_ne_zero (Nat.ne_zero_of_lt deep)
  obtain ⟨-, ⟨parent, prev, next, root⟩, -, -⟩ := subtree
  cases tag with
  | number =>
      rw [evalNode, root]
      rfl
  | name =>
      rw [evalNode, root]
      rfl
  | _ => cases leaf

theorem evaluates_operator {tag : Tag} {operator : String} (named : tag.operator? = some operator)
    {children : List (MarkedTree Tag)} {answers : List (Option Int)}
    (evaluates : List.Forall₂ (Evaluates forest tokens input bindings) children answers)
    (start length : Nat) :
    Evaluates forest tokens input bindings (Phrase.spanning tag start length children)
      (operate tag answers) := by
  intro depth id low subtree deep
  obtain ⟨depth, rfl⟩ := Nat.exists_eq_add_one_of_ne_zero (Nat.ne_zero_of_lt deep)
  have found : forest.children id = .ok (rootIds low children) := subtree.children_eq
  have evaluated : (rootIds low children).mapM (evalNode forest tokens input bindings depth) =
      .ok answers :=
    subtree.mapM_children (Nat.le_of_lt_succ deep) (evaluates.imp fun _ _ here => here depth)
  obtain ⟨-, ⟨parent, prev, next, root⟩, -, -⟩ := subtree
  cases tag with
  | number => cases named
  | name => cases named
  | _ =>
      simp only [evalNode, root, found, evaluated, Fault.ok_bind, rootNode, Phrase.spanning,
        MarkedTree.tag, Fault.pure_eq_ok]

theorem evaluates_phrase {level : Level} (phrase : Phrase level) (start : Nat) :
    Evaluates forest tokens input bindings (phrase.tree start)
      (phrase.computed (knownLeaf tokens input bindings) start) := by
  induction phrase generalizing start with
  | number => exact evaluates_leaf rfl start 1
  | name => exact evaluates_leaf rfl start 1
  | parens _ ih => exact ih (start + 1)
  | plain _ ih => exact ih start
  | unsigned _ ih => exact ih start
  | factor _ ih => exact ih start
  | term _ ih => exact ih start
  | increment _ ih => exact evaluates_operator rfl (.cons (ih start) .nil) start _
  | decrement _ ih => exact evaluates_operator rfl (.cons (ih start) .nil) start _
  | negate _ ih => exact evaluates_operator rfl (.cons (ih (start + 1)) .nil) start _
  | multiply _ _ ih ih' => exact evaluates_operator rfl (.cons (ih _) (.cons (ih' _) .nil)) start _
  | divide _ _ ih ih' => exact evaluates_operator rfl (.cons (ih _) (.cons (ih' _) .nil)) start _
  | add _ _ ih ih' => exact evaluates_operator rfl (.cons (ih _) (.cons (ih' _) .nil)) start _
  | subtract _ _ ih ih' => exact evaluates_operator rfl (.cons (ih _) (.cons (ih' _) .nil)) start _

/-! ## The words of leaves -/

variable {state lexed after : Calculator} {source : String}

def Spelled (tokens : Array Token) (input : Array UInt8) : Prop :=
  ∀ (place : Nat) (token : Token), tokens[place]? = some token →
    Text.Utf8.encode (String.ofList (leafText tokens input place)) =
      input.extract token.start token.stop

def Numeric (tokens : Array Token) (input : Array UInt8) : Prop :=
  ∀ (place : Nat) (token : Token), tokens[place]? = some token → token.kind = .number →
    leafBytes tokens input place ≠ [] ∧
      ∀ b ∈ leafBytes tokens input place, 48 ≤ b.toNat ∧ b.toNat ≤ 57

theorem isDigit_iff {b : UInt8} : isDigit b = true ↔ 48 ≤ b.toNat ∧ b.toNat ≤ 57 := by
  simp [isDigit, UInt8.le_iff_toNat_le]

theorem leafBytes_eq {place : Nat} {token : Token} (found : tokens[place]? = some token) :
    leafBytes tokens input place = (input.extract token.start token.stop).toList := by
  rw [leafBytes, found]

theorem words_of_tokenize (reached : Reached state)
    (lexes : state.tokenize source = .ok (.ok tokens, lexed)) :
    ∀ (place : Nat) (token : Token), tokens[place]? = some token →
      ∃ word after, Lexeme token.kind word after ∧
        leafBytes tokens (Text.Utf8.encode source) place = bytes word := by
  intro place token found
  obtain ⟨refs, trees, tracks⟩ := reached.tracks_lexer
  have tiling := tiling_of_tokenize tracks lexes
  rw [leafBytes_eq found]
  exact tiling.words rfl token (Array.mem_toList_iff.mpr (Array.mem_of_getElem? found))

theorem spelled_of_tokenize (reached : Reached state)
    (lexes : state.tokenize source = .ok (.ok tokens, lexed)) :
    Spelled tokens (Text.Utf8.encode source) := by
  intro place token found
  obtain ⟨word, after, lexeme, spells⟩ := words_of_tokenize reached lexes place token found
  have encoded : leafBytes tokens (Text.Utf8.encode source) place = encodeAll word := by
    rw [spells, encodeAll_ascii lexeme.ascii]
  have text : leafText tokens (Text.Utf8.encode source) place = word := by
    change Text.Utf8.decodeLossyFrom none (leafBytes tokens (Text.Utf8.encode source) place) = word
    rw [encoded, Text.Utf8.decodeLossy_encodeAll]
  apply Array.toList_inj.mp
  rw [text, toList_encode, String.toList_ofList, ← encoded, leafBytes_eq found]

theorem numeric_of_tokenize (reached : Reached state)
    (lexes : state.tokenize source = .ok (.ok tokens, lexed)) :
    Numeric tokens (Text.Utf8.encode source) := by
  intro place token found number
  obtain ⟨word, after, lexeme, spells⟩ := words_of_tokenize reached lexes place token found
  rw [number] at lexeme
  rw [spells]
  cases lexeme with
  | number nonempty digits _ =>
      refine ⟨by simpa [bytes] using nonempty, ?_⟩
      intro b member
      obtain ⟨c, listed, rfl⟩ := List.mem_map.mp member
      exact isDigit_iff.mp (Reading.isDigit_of_within (digits c listed))
  | sign spelled _ => simp [signs] at spelled

theorem ofDigits_eq_decimal (digits : List UInt8) : ofDigits digits = decimal digits := by
  induction digits using List.reverseRecOn with
  | nil => rfl
  | append_singleton digits b ih =>
      have shifted : ofDigits (digits ++ [b]) = 10 * ofDigits digits + digitValue b := by
        simp [ofDigits]
      rw [shifted, ih, decimal, decimal, List.reverse_concat, List.map_cons, Nat.ofDigits_cons,
        Nat.add_comm]
      rfl

theorem literal_eq {digits : List UInt8} (nonempty : digits ≠ [])
    (numeric : ∀ b ∈ digits, 48 ≤ b.toNat ∧ b.toNat ≤ 57) :
    literal? digits = checked (decimal digits) := by
  have no_error : ¬(digits.isEmpty || !digits.all isDigit) = true := by
    simpa [nonempty, isDigit_iff] using numeric
  rw [literal?, if_neg no_error, ofDigits_eq_decimal]

theorem binding_eq_lookup (bindings : List (String × Int)) (name : String) :
    binding? bindings name = bindings.lookup name := by
  induction bindings with
  | nil => rfl
  | cons binding rest ih =>
      obtain ⟨bound, n⟩ := binding
      by_cases here : bound = name
      · subst here
        simp [binding?]
      · have other : (name == bound) = false := by simpa using fun same : name = bound => here same.symm
        rw [List.lookup_cons, other, ← ih]
        simp [binding?, here]

/-- Of tokens with digits for numbers, what is known is right. -/
theorem Numeric.knows (numeric : Numeric tokens input) :
    Knows (tokens.map Token.kind) (knownLeaf tokens input bindings)
      (leavesOf tokens input bindings) where
  number := by
    intro place here
    rw [Array.getElem?_map] at here
    obtain ⟨token, found, kind⟩ := Option.map_eq_some_iff.mp here
    obtain ⟨nonempty, digits⟩ := numeric place token found kind
    exact literal_eq nonempty digits
  name := fun _ => binding_eq_lookup bindings _

/-! ## Sources -/

theorem evaluate_of_parse {phrase : Phrase .sum} {refs : List Backref}
    (parsed : state.parse source = .ok (.ok (), after)) (kept : after.tokens = tokens)
    (tracks : after.parser.Tracks refs [phrase.tree 0] true) (bindings : List (String × Int)) :
    state.evaluate source bindings =
      .ok (.ok (phrase.computed (knownLeaf tokens (Text.Utf8.encode source) bindings) 0),
        after) := by
  obtain ⟨root, low, head, subtree, deep⟩ := root_of_tracks tracks
  have evaluated : evalNode after.parser.forestD tokens (Text.Utf8.encode source) bindings
      (after.parser.forestD.size + 1) root =
        .ok (phrase.computed (knownLeaf tokens (Text.Utf8.encode source) bindings) 0) :=
    evaluates_phrase phrase 0 _ root low subtree deep
  simp only [evaluate, parsed, Fault.ok_bind, head, kept, evaluated]
  rfl

/-- What a calculator evaluates a source to, given the tokens and the phrase of the source. -/
structure Evaluated (state : Calculator) (source : String) (tokens : Array Token)
    (phrase : Phrase .sum) (after : Calculator) : Prop where
  lexes : ∃ lexed, state.tokenize source = .ok (.ok tokens, lexed)
  spelled : Spelled tokens (Text.Utf8.encode source)
  numeric : Numeric tokens (Text.Utf8.encode source)
  derives : phrase.tokens = kindsOf tokens
  built : after.parser.forestD.Represents [phrase.tree 0]
  answers : ∀ bindings : List (String × Int), ∃ answer,
    state.evaluate source bindings = .ok (.ok answer, after) ∧
      Exact answer (phrase.value (leavesOf tokens (Text.Utf8.encode source) bindings) 0)
        (phrase.results (leavesOf tokens (Text.Utf8.encode source) bindings) 0)
  /-- No operator makes up for a number that does not fit. -/
  large : ∀ (place : Nat) (token : Token), tokens[place]? = some token → token.kind = .number →
    9223372036854775807 < decimal (leafBytes tokens (Text.Utf8.encode source) place) →
      ∀ bindings : List (String × Int), state.evaluate source bindings = .ok (.ok none, after)
  least : ∀ (left : Phrase .product) (right : Phrase .signed) (bindings : List (String × Int)),
    phrase = .term (.divide left right) →
    left.value (leavesOf tokens (Text.Utf8.encode source) bindings) 0 =
      some (-9223372036854775808) →
    right.value (leavesOf tokens (Text.Utf8.encode source) bindings) (left.length + 1) = some (-1) →
      state.evaluate source bindings = .ok (.ok none, after)

variable {answer value : Option Int} {results : List (Option Int)} {n : Int}

/-- A result that does not fit leads to nothing. -/
theorem Exact.none_of_result (agrees : Exact answer value results) (listed : some n ∈ results)
    (large : ¬Fits n) : answer = none := by
  rw [Option.eq_none_iff_forall_ne_some]
  intro v computed
  obtain ⟨-, fits⟩ := (agrees v).mp computed
  exact large (fits _ listed n rfl)

theorem number_of_getElem {place : Nat} {token : Token} (found : tokens[place]? = some token)
    (number : token.kind = .number) : (kindsOf tokens)[place]? = some .number := by
  rw [kindsOf, List.getElem?_map, Array.getElem?_toList, found, Option.map_some, number]

/-- Every source that parses is evaluated exactly, on every calculator in use. -/
theorem evaluate_exact (reached : Reached state)
    (parsed : state.parse source = .ok (.ok (), after)) :
    ∃ tokens phrase, Evaluated state source tokens phrase after := by
  obtain ⟨tokens, lexed, phrase, lexes, derives, kept, tracks⟩ := phrase_of_parse reached parsed
  have numeric := numeric_of_tokenize reached lexes
  have place : At (tokens.map Token.kind) 0 (phrase.tokens ++ []) :=
    ⟨[], by rw [derives]; simp [kindsOf], rfl⟩
  have evaluates := evaluate_of_parse parsed kept tracks
  have agrees : ∀ bindings : List (String × Int),
      Exact (phrase.computed (knownLeaf tokens (Text.Utf8.encode source) bindings) 0)
        (phrase.value (leavesOf tokens (Text.Utf8.encode source) bindings) 0)
        (phrase.results (leavesOf tokens (Text.Utf8.encode source) bindings) 0) :=
    fun bindings => numeric.knows.exact phrase place
  refine ⟨tokens, phrase, ⟨lexed, lexes⟩, spelled_of_tokenize reached lexes, numeric, derives,
    tracks.represents, fun bindings => ⟨_, evaluates bindings, agrees bindings⟩, ?_, ?_⟩
  · intro place token found number large bindings
    have listed := phrase.listsNumbers (leavesOf tokens (Text.Utf8.encode source) bindings) 0
      (by rw [derives]; exact number_of_getElem found number)
    rw [Nat.zero_add] at listed
    rw [evaluates, (agrees bindings).none_of_result listed]
    rintro ⟨-, below⟩
    exact absurd large (Nat.not_lt.mpr (Int.ofNat_le.mp below))
  · intro left right bindings shape least minus
    subst shape
    have listed : some 9223372036854775808 ∈ (Phrase.term (.divide left right)).results
        (leavesOf tokens (Text.Utf8.encode source) bindings) 0 := by
      rw [Phrase.results, Phrase.results, Phrase.value, least, Nat.zero_add, minus]
      exact List.mem_cons_self
    rw [evaluates, (agrees bindings).none_of_result listed]
    rintro ⟨-, below⟩
    exact absurd below (by decide)

theorem evaluate_exact_after_refusal :
    ∃ state after, Reached state ∧ state.parse "-(a + 1) * 2 - 3++" = .ok (.ok (), after) ∧
      ∃ tokens phrase, Evaluated state "-(a + 1) * 2 - 3++" tokens phrase after := by
  have found : kindsAfter "(1" "-(a + 1) * 2 - 3++" = some grouped.tokens := by decide +kernel
  obtain ⟨state, tokens, lexed, reached, lexes, kinds⟩ := exists_of_kindsAfter found
  obtain ⟨after, parsed, -, -⟩ := parse_of_phrase reached lexes grouped kinds.symm
  exact ⟨state, after, reached, parsed, evaluate_exact reached parsed⟩

end PegForest.Calculator
