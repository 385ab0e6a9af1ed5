import PegForest.Proofs.Action.Respect
import PegForest.Proofs.Session

/-!
# Matching without regard to letter case

A matcher looks at atoms only through its comparator.  So when the comparator orders atoms by a key,
a match goes as the match of the keys would: the stored atoms and the input are replaced by their
keys and compared as they are.  Contexts do not hold atoms, and so both matches leave the very same
context behind.  Without regard to case the key of a letter is the letter in lower case.
-/

set_option autoImplicit false

namespace PegForest

variable {α β τ : Type} {key : α → β}

/-- The same fault, apart from the atoms that an empty range is named by. -/
inductive Fault.Resembles : Fault → Fault → Prop where
  | refl (fault : Fault) : Resembles fault fault
  | emptyRange (low high low' high' : String) :
      Resembles (.emptyRange low high) (.emptyRange low' high')

theorem Fault.Resembles.symm {fault fault' : Fault} (resembles : fault.Resembles fault') :
    fault'.Resembles fault := by
  cases resembles with
  | refl => exact .refl _
  | emptyRange low high low' high' => exact .emptyRange low' high' low high

theorem Fault.Resembles.trans {fault fault' fault'' : Fault} (resembles : fault.Resembles fault')
    (resembles' : fault'.Resembles fault'') : fault.Resembles fault'' := by
  cases resembles with
  | refl => exact resembles'
  | emptyRange low high low' high' =>
      cases resembles' with
      | refl => exact .emptyRange low high low' high'
      | emptyRange _ _ low'' high'' => exact .emptyRange low high low'' high''

theorem Comparator.keyed_byKey [Atom α] [Atom β] [Ord β] (key : α → β) :
    (byKey key).Keyed Fault.Resembles key natural where
  compares := fun _ _ => rfl
  emptyRange := fun _ _ => .emptyRange _ _ _ _

-- Remainders are keys as well.
example : (AtomClass.exactly 2).test (Comparator.modulo 3) (-1) = .ok true := by decide

def Span.map (key : α → β) : Span α → Span β
  | valid source cursor limit => .valid (source.map key) cursor limit
  | failed source offset => .failed (source.map key) offset

theorem Verdict.map_toSpan (verdict : Verdict) (source : Array α) (limit : Nat) :
    (verdict.toSpan source limit).map key = verdict.toSpan (source.map key) limit := by
  cases verdict <;> rfl

namespace Session

/-- The keys of a match: of the atoms stored in its matcher and its grammar and of its input. -/
def Match.mapAtoms (key : α → β) (order : Comparator β) (attempt : Match α τ) : Match β τ where
  grammar := attempt.grammar.mapAtoms key
  order := order
  depth := attempt.depth
  matcher := attempt.matcher.mapAtoms key
  source := attempt.source.map key
  cursor := attempt.cursor
  limit := attempt.limit

def Match.under (attempt : Match α τ) (order : Comparator α) : Match α τ :=
  { attempt with order }

def KeyOf (key : α → β) (answer : Span α × Context τ) (answer' : Span β × Context τ) : Prop :=
  answer.1.map key = answer'.1 ∧ answer.2 = answer'.2

/-- The same context, and spans that become the same over the keys. -/
def SameKeys (key : α → β) (answer answer' : Span α × Context τ) : Prop :=
  answer.1.map key = answer'.1.map key ∧ answer.2 = answer'.2

variable [Atom α] [Atom β]

theorem Match.action_mapAtoms {order : Comparator β} (attempt : Match α τ)
    (keyed : attempt.order.Keyed Fault.Resembles key order)
    (inside : attempt.cursor ≤ attempt.limit ∧ attempt.limit ≤ attempt.source.size)
    (ctx : Context τ) :
    Concur Fault.Resembles Eq
      (attempt.action ⟨attempt.source, attempt.limit⟩ ctx attempt.cursor)
      ((attempt.mapAtoms key order).action ⟨attempt.source.map key, attempt.limit⟩ ctx
        attempt.cursor) := by
  let zone : Zone α := ⟨⟨attempt.source, attempt.limit⟩, attempt.cursor, False, inside.2⟩
  have misused : ∀ {fault : Fault}, fault.IsMisuse → fault.Resembles fault := fun _ => .refl _
  have respects : Action.Respects Fault.Resembles Eq zone (attempt.action zone.toWindow)
      ((attempt.mapAtoms key order).action (zone.toWindow.map key)) := by
    apply Grammar.run_respects (Context.lasting_eq misused) keyed (.refl _) attempt.depth
    intro inner _
    exact Matcher.asks_of_shares (Context.sharesRefs_eq misused) (fun _ => id) fun _ _ => trivial
  apply (respects ctx ctx attempt.cursor ⟨Nat.le_refl _, inside.1⟩ rfl).mono
  intro answer answer' answers
  cases answers with
  | matched _ _ related => rw [related]
  | failed _ related => rw [related]

theorem Match.run_mapAtoms {order : Comparator β} (attempt : Match α τ)
    (keyed : attempt.order.Keyed Fault.Resembles key order) (ctx : Context τ) :
    Concur Fault.Resembles (KeyOf key) (attempt.run ctx)
      ((attempt.mapAtoms key order).run ctx) := by
  have size : (attempt.mapAtoms key order).source.size = attempt.source.size := Array.size_map
  by_cases inside : attempt.cursor ≤ attempt.limit ∧ attempt.limit ≤ attempt.source.size
  · have inside' : (attempt.mapAtoms key order).cursor ≤ (attempt.mapAtoms key order).limit ∧
        (attempt.mapAtoms key order).limit ≤ (attempt.mapAtoms key order).source.size := by
      rw [size]
      exact inside
    rw [attempt.run_of_inside inside, (attempt.mapAtoms key order).run_of_inside inside']
    apply (attempt.action_mapAtoms keyed inside ctx).bind
    rintro ⟨verdict, after⟩ _ rfl
    exact .ok ⟨verdict.map_toSpan attempt.source attempt.limit, rfl⟩
  · have outside' : ¬((attempt.mapAtoms key order).cursor ≤ (attempt.mapAtoms key order).limit ∧
        (attempt.mapAtoms key order).limit ≤ (attempt.mapAtoms key order).source.size) := by
      rw [size]
      exact inside
    rw [attempt.run_of_outside inside, (attempt.mapAtoms key order).run_of_outside outside', size]
    exact .error (.refl _)

/-- Matches with the same keys go alike when only keys are compared. -/
theorem Match.run_sameKeys [Ord β] {attempt other : Match α τ}
    (same : attempt.mapAtoms key .natural = other.mapAtoms key .natural) (ctx : Context τ) :
    Concur Fault.Resembles (SameKeys key) ((attempt.under (.byKey key)).run ctx)
      ((other.under (.byKey key)).run ctx) := by
  -- Both go as the one match of their keys.
  have here := (attempt.under (.byKey key)).run_mapAtoms (Comparator.keyed_byKey key) ctx
  have there := (other.under (.byKey key)).run_mapAtoms (Comparator.keyed_byKey key) ctx
  have shared : (attempt.under (.byKey key)).mapAtoms key .natural =
      (other.under (.byKey key)).mapAtoms key .natural := same
  rw [shared] at here
  apply here.trans there.symm
  · intro fault lowered fault' resembles resembles'
    exact resembles.trans resembles'.symm
  · intro answer lowered answer' keyOf keyOf'
    exact ⟨keyOf.1.trans keyOf'.1.symm, keyOf.2.trans keyOf'.2.symm⟩

/-- Without regard to case a match goes as the match in lower case does, and so it does not depend
on the case of any letter, be it stored in the matcher or read from the input. -/
theorem caseless_match_ignores_case (ctx : Context τ) :
    (∀ attempt : Match UInt8 τ,
      (attempt.mapAtoms Text.Ascii.lower .natural).matcher.validate = attempt.matcher.validate ∧
      Concur Fault.Resembles (KeyOf Text.Ascii.lower) ((attempt.under .caselessByte).run ctx)
        ((attempt.mapAtoms Text.Ascii.lower .natural).run ctx)) ∧
    (∀ attempt : Match Char τ,
      (attempt.mapAtoms Char.toLower .natural).matcher.validate = attempt.matcher.validate ∧
      Concur Fault.Resembles (KeyOf Char.toLower) ((attempt.under .caselessChar).run ctx)
        ((attempt.mapAtoms Char.toLower .natural).run ctx)) ∧
    (∀ attempt other : Match UInt8 τ,
      attempt.mapAtoms Text.Ascii.lower .natural = other.mapAtoms Text.Ascii.lower .natural →
      Concur Fault.Resembles (SameKeys Text.Ascii.lower) ((attempt.under .caselessByte).run ctx)
        ((other.under .caselessByte).run ctx)) ∧
    (∀ attempt other : Match Char τ,
      attempt.mapAtoms Char.toLower .natural = other.mapAtoms Char.toLower .natural →
      Concur Fault.Resembles (SameKeys Char.toLower) ((attempt.under .caselessChar).run ctx)
        ((other.under .caselessChar).run ctx)) := by
  refine ⟨?_, ?_, ?_, ?_⟩
  · intro attempt
    exact ⟨attempt.matcher.validate_mapAtoms,
      (attempt.under .caselessByte).run_mapAtoms (Comparator.keyed_byKey _) ctx⟩
  · intro attempt
    exact ⟨attempt.matcher.validate_mapAtoms,
      (attempt.under .caselessChar).run_mapAtoms (Comparator.keyed_byKey _) ctx⟩
  · intro attempt other same
    exact Match.run_sameKeys same ctx
  · intro attempt other same
    exact Match.run_sameKeys same ctx

/-- A range, a set outside of which the next atom has to be, and a stored letter that has to come
again, in the case that `letter` gives. -/
def repeatedLetter (letter : UInt8 → UInt8) : Match UInt8 Nat :=
  byteMatch
    (.seq [.store "n" (.node (some 1) false (.one (.within (letter 97) (letter 122)))),
      .one (.except (.among [letter 98])), .backref "n"])
    #[letter 97, 99, 65]

theorem caseless_match_ignores_case_repeatedLetter :
    (repeatedLetter id).mapAtoms Text.Ascii.lower .natural =
        (repeatedLetter (· - 32)).mapAtoms Text.Ascii.lower .natural ∧
      (((repeatedLetter id).under .caselessByte).run .freshTree).toBool = true ∧
      Concur Fault.Resembles (SameKeys Text.Ascii.lower)
        (((repeatedLetter id).under .caselessByte).run .freshTree)
        (((repeatedLetter (· - 32)).under .caselessByte).run .freshTree) := by
  have same : (repeatedLetter id).mapAtoms Text.Ascii.lower .natural =
      (repeatedLetter (· - 32)).mapAtoms Text.Ascii.lower .natural := by
    have letters : Text.Ascii.lower 65 = Text.Ascii.lower 97 ∧
        Text.Ascii.lower 66 = Text.Ascii.lower 98 ∧
        Text.Ascii.lower 90 = Text.Ascii.lower 122 := by decide
    simp [Match.mapAtoms, repeatedLetter, byteMatch, Matcher.mapAtoms, Matcher.mapAtomsAll,
      AtomClass.map, letters]
  obtain ⟨-, -, unchanged, -⟩ := caseless_match_ignores_case (.freshTree : Context Nat)
  exact ⟨same, by decide +kernel, unchanged _ _ same⟩

end Session

end PegForest
