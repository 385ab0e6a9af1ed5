import PegForest.Proofs.Matcher.Part
import PegForest.Proofs.Reading.Likeness

/-!
# Matchers without their nodes

`erase` takes the nodes and the promotions out of a matcher and leaves what it recognises.  The
reading of a matcher and the reading of what is left of it move alike and store alike: nothing that
a reading does next depends on the trees that were built before.

Which faults may stop the two readings is left open.  With `Eq` they stop alike; with a relation
that only holds of some faults, the matcher never stops with another one.  What the two readings
have stored before is left open as well, as far as no part of the matcher asks for it.
-/

set_option autoImplicit false

namespace PegForest

variable {α τ ρ : Type}

namespace Matcher

mutual

def erase : Matcher α τ ρ → Matcher α τ ρ
  | .node _ _ inner | .promote inner => inner.erase
  | .seq steps => .seq (eraseAll steps)
  | .seqOpt steps => .seqOpt (eraseAll steps)
  | .choice alternatives => .choice (eraseAll alternatives)
  | .nonEmpty inner => .nonEmpty inner.erase
  | .star inner => .star inner.erase
  | .plus inner => .plus inner.erase
  | .opt inner => .opt inner.erase
  | .times count inner => .times count inner.erase
  | .timesBetween least most inner => .timesBetween least most inner.erase
  | .ahead inner => .ahead inner.erase
  | .notAhead inner => .notAhead inner.erase
  | .upTo inner => .upTo inner.erase
  | .block opening item closing => .block opening.erase item.erase closing.erase
  | .list opening item separator closing =>
      .list opening.erase item.erase separator.erase closing.erase
  | .store name inner => .store name inner.erase
  | .one kind => .one kind
  | .literal atoms => .literal atoms
  | .endOfInput => .endOfInput
  | .backref name => .backref name
  | .rule name => .rule name
  | .skip count => .skip count
  | .failAt offset => .failAt offset

def eraseAll : List (Matcher α τ ρ) → List (Matcher α τ ρ)
  | [] => []
  | matcher :: rest => matcher.erase :: eraseAll rest

end

end Matcher

def Grammar.erase (grammar : Grammar α τ ρ) : Grammar α τ ρ := fun name =>
  (grammar name).erase

def Likeness.recognition (stops : Fault → Fault → Prop) : Likeness τ τ where
  refs := Eq
  trees := fun _ _ => True
  stops := stops
  refs_nil := rfl
  refs_append := by
    rintro _ _ _ _ rfl rfl
    rfl
  trees_nil := trivial
  trees_append := fun _ _ => trivial

/-- Whatever was built is alike, and what was stored is like itself. -/
structure Likeness.Forgets (like : Likeness τ τ) : Prop where
  trees : ∀ trees trees', like.trees trees trees'
  refs : ∀ refs, like.refs refs refs

theorem Likeness.forgets_recognition (stops : Fault → Fault → Prop) :
    (Likeness.recognition stops : Likeness τ τ).Forgets :=
  ⟨fun _ _ => trivial, fun _ => rfl⟩

namespace Reading

variable {like : Likeness τ τ} {limit : Nat} {window : Window α}

theorem Advances.alike {reading : Reading τ} (forgets : like.Forgets)
    (advances : reading.Advances limit)
    (unseen : ∀ refs refs' cursor, like.refs refs refs' →
      reading refs cursor = reading refs' cursor)
    (stopping : ∀ refs cursor fault, reading refs cursor = .error fault → like.stops fault fault) :
    Alike like limit reading reading := by
  intro refs refs' cursor within before
  rw [← unseen refs refs' cursor before]
  cases read : reading refs cursor with
  | error fault => exact .error (stopping refs cursor fault read)
  | ok outcome =>
      cases outcome with
      | failed offset => exact .ok (.failed offset)
      | matched next trees stored =>
          have moved := advances refs cursor _ read
          exact .ok (.matched moved.forward (moved.bounded within) (forgets.trees _ _)
            (forgets.refs stored))

theorem stops_of_one {test : α → Except Fault Bool} {refs : List Backref} {cursor : Nat}
    {fault : Fault} (stopped : (one window test : Reading τ) refs cursor = .error fault) :
    ∃ a, test a = .error fault := by
  unfold one at stopped
  split at stopped
  · cases stopped
  · next a _ =>
      cases passes : test a with
      | ok passed =>
          rw [passes] at stopped
          cases stopped
      | error fault' =>
          rw [passes] at stopped
          cases stopped
          exact ⟨a, passes⟩

theorem literal_returns (order : Comparator α) (atoms : List α) (refs : List Backref) (cursor : Nat)
    (fault : Fault) : (literal order window atoms : Reading τ) refs cursor ≠ .error fault := by
  induction atoms generalizing cursor with
  | nil => simp [literal, succeed]
  | cons expected rest ih =>
      unfold literal
      split
      · simp
      · split
        · exact ih (cursor + 1)
        · simp

theorem literal_unseen (order : Comparator α) (atoms : List α) (refs refs' : List Backref)
    (cursor : Nat) :
    (literal order window atoms : Reading τ) refs cursor =
      literal order window atoms refs' cursor := by
  induction atoms generalizing cursor with
  | nil => rfl
  | cons expected rest ih => simp only [literal, ih]

end Reading

/-- What a matcher asks for, apart from what its parts ask for, so that it only stops as `stops`
allows: a test that stops so, leave to stop anyhow where it needs something to be there, and `calls`
of the rules that it calls. -/
def Matcher.Stops [Atom α] (order : Comparator α) (stops : Fault → Fault → Prop)
    (calls : ρ → Prop) : Matcher α τ ρ → Prop
  | .one kind => ∀ a fault, kind.test order a = .error fault → stops fault fault
  | .backref _ | .skip _ | .failAt _ => ∀ fault, stops fault fault
  | .rule name => calls name
  | _ => True

/-- What a matcher asks for in the same way, so that it goes alike with stores that are alike: a
range that it asks for leads on alike from both. -/
def Likeness.Suits [Atom α] (like : Likeness τ τ) (order : Comparator α) (window : Window α)
    (calls : ρ → Prop) : Matcher α τ ρ → Prop
  | .one kind => ∀ a fault, kind.test order a = .error fault → like.stops fault fault
  | .skip _ | .failAt _ => ∀ fault, like.stops fault fault
  | .backref name => Reading.Alike like window.limit (.backref order window name)
      (.backref order window name)
  | .rule name => calls name
  | _ => True

variable [Atom α] {order : Comparator α} {stops : Fault → Fault → Prop} {window : Window α}
  {like : Likeness τ τ}

theorem Likeness.Suits.of_calls {calls calls' : ρ → Prop} {matcher : Matcher α τ ρ}
    (suits : like.Suits order window calls matcher)
    (called : ∀ name, matcher = .rule name → calls' name) :
    like.Suits order window calls' matcher := by
  cases matcher with
  | rule name => exact called name rfl
  | _ => exact suits

theorem Matcher.Stops.suits {calls : ρ → Prop} {matcher : Matcher α τ ρ}
    (allowed : matcher.Stops order stops calls) :
    (Likeness.recognition stops).Suits order window calls matcher := by
  cases matcher with
  | backref name =>
      apply (Reading.advances_backref order name).alike (Likeness.forgets_recognition stops)
      · rintro refs _ cursor rfl
        rfl
      · exact fun _ _ fault _ => allowed fault
  | _ => exact allowed

mutual

theorem Likeness.Forgets.matcher_alike (forgets : like.Forgets) {call call' : ρ → Reading τ} :
    ∀ matcher : Matcher α τ ρ,
      matcher.Every (like.Suits order window fun name =>
        Reading.Alike like window.limit (call name) (call' name)) →
      Reading.Alike like window.limit (matcher.reading order window call)
        (matcher.erase.reading order window call')
  | .one kind, every => by
      apply (Reading.advances_one (kind.test order)).alike forgets fun _ _ _ _ => rfl
      intro refs cursor fault stopped
      obtain ⟨a, failed⟩ := Reading.stops_of_one stopped
      exact every.here a fault failed
  | .literal atoms, _ => by
      apply (Reading.advances_literal order atoms).alike forgets fun refs refs' cursor _ =>
        Reading.literal_unseen order atoms refs refs' cursor
      intro refs cursor fault stopped
      exact absurd stopped (Reading.literal_returns order atoms refs cursor fault)
  | .endOfInput, _ => by
      apply Reading.advances_endOfInput.alike forgets fun _ _ _ _ => rfl
      intro refs cursor fault stopped
      cases stopped
  | .seq steps, every => .sequence (forgets.all_alike steps every.parts)
  | .seqOpt steps, every => .sequenceOpt (forgets.all_alike steps every.parts)
  | .choice alternatives, every => .choice (forgets.all_alike alternatives every.parts)
  | .nonEmpty inner, every => (forgets.matcher_alike inner (every.inner rfl)).nonEmpty
  | .star inner, every => (forgets.matcher_alike inner (every.inner rfl)).repeated
  | .plus inner, every =>
      (forgets.matcher_alike inner (every.inner rfl)).thenIfMoved
        (forgets.matcher_alike inner (every.inner rfl)).repeated
  | .opt inner, every => (forgets.matcher_alike inner (every.inner rfl)).optional
  | .times count inner, every => (forgets.matcher_alike inner (every.inner rfl)).times count
  | .timesBetween least most inner, every =>
      (forgets.matcher_alike inner (every.inner rfl)).atLeast
        ((forgets.matcher_alike inner (every.inner rfl)).greedy Reading.alike_succeed _) least
  | .ahead inner, every => (forgets.matcher_alike inner (every.inner rfl)).ahead
  | .notAhead inner, every => (forgets.matcher_alike inner (every.inner rfl)).notAhead
  | .upTo inner, every => fun refs refs' cursor within =>
      (forgets.matcher_alike inner (every.inner rfl)).upTo (window.limit - cursor) refs refs' cursor
        (Nat.le_of_eq (Nat.add_sub_of_le within))
  | .block opening item closing, every =>
      (forgets.matcher_alike opening (every.parts _ (by simp [Matcher.parts]))).andThen
        fun refs refs' cursor within =>
          (forgets.matcher_alike item (every.parts _ (by simp [Matcher.parts]))).blockRounds
            (forgets.matcher_alike closing (every.parts _ (by simp [Matcher.parts])))
            (window.limit - cursor + 1) refs refs' cursor within (Nat.lt_succ_self _)
  | .list opening item separator closing, every =>
      (forgets.matcher_alike opening (every.parts _ (by simp [Matcher.parts]))).andThen
        fun refs refs' cursor within =>
          (forgets.matcher_alike item (every.parts _ (by simp [Matcher.parts]))).listRounds
            (forgets.matcher_alike separator (every.parts _ (by simp [Matcher.parts])))
            (forgets.matcher_alike closing (every.parts _ (by simp [Matcher.parts])))
            (window.limit - cursor + 1) refs refs' cursor within (Nat.lt_succ_self _)
  | .store name inner, every =>
      (forgets.matcher_alike inner (every.inner rfl)).store (fun entry => forgets.refs [entry]) name
  | .backref _, every => every.here
  | .node _ _ inner, every =>
      (forgets.matcher_alike inner (every.inner rfl)).building_left
        fun _ _ _ _ _ => forgets.trees _ _
  | .promote inner, every =>
      (forgets.matcher_alike inner (every.inner rfl)).building_left
        fun _ _ _ _ _ => forgets.trees _ _
  | .rule _, every => every.here
  | .skip count, every =>
      (Reading.advances_skip count).alike forgets (fun _ _ _ _ => rfl) fun _ _ fault _ =>
        every.here fault
  | .failAt offset, every =>
      (Reading.advances_failAt offset).alike forgets (fun _ _ _ _ => rfl) fun _ _ fault _ =>
        every.here fault

theorem Likeness.Forgets.all_alike (forgets : like.Forgets) {call call' : ρ → Reading τ} :
    ∀ matchers : List (Matcher α τ ρ),
      (∀ matcher ∈ matchers, matcher.Every (like.Suits order window fun name =>
        Reading.Alike like window.limit (call name) (call' name))) →
      List.Forall₂ (Reading.Alike like window.limit) (Matcher.readings order window call matchers)
        (Matcher.readings order window call' (Matcher.eraseAll matchers))
  | [], _ => .nil
  | matcher :: rest, every =>
      .cons (forgets.matcher_alike matcher (every matcher List.mem_cons_self))
        (forgets.all_alike rest fun other member =>
          every other (List.mem_cons_of_mem matcher member))

end

theorem Likeness.Forgets.grammar_alike (forgets : like.Forgets)
    (bounded : like.stops .exhausted .exhausted) {grammar : Grammar α τ ρ} (depth : Nat) :
    ∀ matcher : Matcher α τ ρ,
      (∀ inner, grammar.Uses matcher inner → like.Suits order window (fun _ => True) inner) →
      Reading.Alike like window.limit (grammar.reading order depth window matcher)
        (grammar.erase.reading order depth window matcher.erase) := by
  induction depth with
  | zero =>
      intro matcher uses
      apply forgets.matcher_alike matcher
      intro part partOf
      apply (uses part (.of_partOf partOf (.self part))).of_calls
      intro name _
      exact Reading.alike_stop bounded
  | succ depth ih =>
      intro matcher uses
      apply forgets.matcher_alike matcher
      intro part partOf
      apply (uses part (.of_partOf partOf (.self part))).of_calls
      -- What is left of a rule is the rule of the erased grammar, one level down.
      rintro name rfl
      apply ih (grammar name)
      intro inner deeper
      exact uses inner (.of_partOf partOf (.rule deeper))

theorem Matcher.erase_alike {call call' : ρ → Reading τ} (matcher : Matcher α τ ρ)
    (every : matcher.Every (Stops order stops fun name =>
      Reading.Alike (.recognition stops) window.limit (call name) (call' name))) :
    Reading.Alike (.recognition stops) window.limit (matcher.reading order window call)
      (matcher.erase.reading order window call') :=
  (Likeness.forgets_recognition stops).matcher_alike matcher fun part partOf =>
    (every part partOf).suits

theorem Grammar.erase_alike (bounded : stops .exhausted .exhausted) {grammar : Grammar α τ ρ}
    (depth : Nat) (matcher : Matcher α τ ρ)
    (uses : ∀ inner, grammar.Uses matcher inner → inner.Stops order stops fun _ => True) :
    Reading.Alike (.recognition stops) window.limit (grammar.reading order depth window matcher)
      (grammar.erase.reading order depth window matcher.erase) :=
  (Likeness.forgets_recognition stops).grammar_alike bounded depth matcher fun inner used =>
    (uses inner used).suits

end PegForest
