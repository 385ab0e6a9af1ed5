import PegForest.Matcher.Eval
import PegForest.Proofs.Forest.Promote

/-!
# Readings

A reading is what a matcher says about a place of the input when nothing is ever changed and so
nothing has to be undone.  From the stored backreferences and a cursor it goes to a failure offset,
or to a cursor together with the trees that were built and the backreferences that were stored on
the way.  Steps that follow each other concatenate their trees; an attempt that fails contributes
nothing, because nobody takes its trees; looking ahead contributes nothing either.

`Matcher.reading` and `Grammar.reading` follow the constructors of matchers and the calls of rules.
-/

set_option autoImplicit false

namespace PegForest

inductive Outcome (τ : Type) where
  /-- The match ends before `cursor`, with new trees and new backreferences. -/
  | matched (cursor : Nat) (trees : List (MarkedTree τ)) (stored : List Backref)
  | failed (offset : Nat)

def Outcome.after {τ : Type} (trees : List (MarkedTree τ)) (stored : List Backref) :
    Outcome τ → Outcome τ
  | .matched cursor more moreStored => .matched cursor (trees ++ more) (stored ++ moreStored)
  | .failed offset => .failed offset

abbrev Reading (τ : Type) := List Backref → Nat → Except Fault (Outcome τ)

namespace Reading

variable {τ : Type}

def succeed : Reading τ := fun _ cursor =>
  .ok (.matched cursor [] [])

def stop (fault : Fault) : Reading τ := fun _ _ =>
  .error fault

def resume (second : Reading τ) (refs : List Backref) (next : Nat) (trees : List (MarkedTree τ))
    (stored : List Backref) : Except Fault (Outcome τ) := do
  let outcome ← second (refs ++ stored) next
  return outcome.after trees stored

def andThen (first second : Reading τ) : Reading τ := fun refs cursor => do
  match ← first refs cursor with
  | .matched next trees stored => second.resume refs next trees stored
  | .failed offset => return .failed offset

def sequence : List (Reading τ) → Reading τ
  | [] => succeed
  | reading :: rest => reading.andThen (sequence rest)

def sequenceOpt : List (Reading τ) → Reading τ
  | [] => succeed
  | reading :: rest => fun refs cursor => do
      match ← reading refs cursor with
      | .matched next trees stored => (sequenceOpt rest).resume refs next trees stored
      | .failed _ => return .matched cursor [] []

def firstOf (offset : Nat) : List (Reading τ) → Reading τ
  | [] => fun _ _ => .ok (.failed offset)
  | reading :: rest => fun refs cursor => do
      match ← reading refs cursor with
      | .matched next trees stored => return .matched next trees stored
      | .failed furthest => firstOf (max offset furthest) rest refs cursor

def choice (readings : List (Reading τ)) : Reading τ := fun refs cursor =>
  firstOf cursor readings refs cursor

def nonEmpty (reading : Reading τ) : Reading τ := fun refs cursor => do
  match ← reading refs cursor with
  | .matched next trees stored =>
      if next = cursor then return .failed cursor else return .matched next trees stored
  | .failed offset => return .failed offset

def optional (reading : Reading τ) : Reading τ := fun refs cursor => do
  match ← reading refs cursor with
  | .matched next trees stored => return .matched next trees stored
  | .failed _ => return .matched cursor [] []

def ahead (reading : Reading τ) : Reading τ := fun refs cursor => do
  match ← reading refs cursor with
  | .matched _ _ _ => return .matched cursor [] []
  | .failed offset => return .failed offset

def notAhead (reading : Reading τ) : Reading τ := fun refs cursor => do
  match ← reading refs cursor with
  | .matched _ _ _ => return .failed cursor
  | .failed _ => return .matched cursor [] []

def store (name : String) (reading : Reading τ) : Reading τ := fun refs cursor => do
  match ← reading refs cursor with
  | .matched next trees stored => return .matched next trees (stored ++ [⟨name, ⟨cursor, next⟩⟩])
  | .failed offset => return .failed offset

def building (change : Nat → Nat → List (MarkedTree τ) → List (MarkedTree τ))
    (reading : Reading τ) : Reading τ := fun refs cursor => do
  match ← reading refs cursor with
  | .matched next trees stored => return .matched next (change cursor next trees) stored
  | .failed offset => return .failed offset

/-- One tree over the trees of the reading, which lose their marks. -/
def node (tag : Option τ) (bookmark : Bool) : Reading τ → Reading τ :=
  building fun start stop trees => [.node tag start stop bookmark (trees.map MarkedTree.unmark)]

/-- The trees of the reading folded from left to right over the marked ones. -/
def promote : Reading τ → Reading τ :=
  building MarkedTree.promoteAll

def greedy (reading last : Reading τ) : (rounds : Nat) → Reading τ
  | 0 => last
  | rounds + 1 => fun refs cursor => do
      match ← reading refs cursor with
      | .matched next trees stored =>
          if next = cursor then return .matched next trees stored
          else (greedy reading last rounds).resume refs next trees stored
      | .failed _ => return .matched cursor [] []

def thenIfMoved (first second : Reading τ) : Reading τ := fun refs cursor => do
  match ← first refs cursor with
  | .matched next trees stored =>
      if next = cursor then return .matched next trees stored
      else second.resume refs next trees stored
  | .failed offset => return .failed offset

def times (reading : Reading τ) : (count : Nat) → Reading τ
  | 0 => succeed
  | count + 1 => reading.andThen (times reading count)

def atLeast (reading rest : Reading τ) : (count : Nat) → Reading τ
  | 0 => rest
  | count + 1 => reading.thenIfMoved (atLeast reading rest count)

def upTo (reading : Reading τ) : (left : Nat) → Reading τ
  | 0 => fun refs cursor => do
      match ← reading refs cursor with
      | .matched _ _ _ => return .matched cursor [] []
      | .failed _ => return .failed cursor
  | left + 1 => fun refs cursor => do
      match ← reading refs cursor with
      | .matched _ _ _ => return .matched cursor [] []
      | .failed _ => upTo reading left refs (cursor + 1)

def closeOr (closing other after : Reading τ) : Reading τ := fun refs cursor => do
  match ← closing refs cursor with
  | .matched next trees stored => return .matched next trees stored
  | .failed unclosed =>
      match ← other refs cursor with
      | .matched next trees stored => after.resume refs next trees stored
      | .failed offset => return .failed (max unclosed offset)

def blockRounds (item closing : Reading τ) : (rounds : Nat) → Reading τ
  | 0 => stop .exhausted
  | rounds + 1 => fun refs cursor =>
      closing.closeOr item
        (fun refs next =>
          if next = cursor then .ok (.failed cursor)
          else blockRounds item closing rounds refs next)
        refs cursor

def listRounds (item separator closing : Reading τ) : (rounds : Nat) → Reading τ
  | 0 => stop .exhausted
  | rounds + 1 => fun refs cursor =>
      closing.closeOr item
        (fun refs afterItem =>
          closing.closeOr separator
            (fun refs next =>
              if next = cursor then .ok (.failed afterItem)
              else listRounds item separator closing rounds refs next)
            refs afterItem)
        refs cursor

section Atoms

variable {α : Type}

def one (window : Window α) (test : α → Except Fault Bool) : Reading τ := fun _ cursor =>
  match window.peek? cursor with
  | none => .ok (.failed cursor)
  | some a => do
      let passed ← test a
      return if passed then .matched (cursor + 1) [] [] else .failed cursor

def literal (order : Comparator α) (window : Window α) : List α → Reading τ
  | [] => succeed
  | expected :: rest => fun refs cursor =>
      match window.peek? cursor with
      | none => .ok (.failed cursor)
      | some a =>
          if order.same a expected then literal order window rest refs (cursor + 1)
          else .ok (.failed cursor)

def endOfInput (window : Window α) : Reading τ := fun _ cursor =>
  .ok (if cursor = window.limit then .matched cursor [] [] else .failed cursor)

def backref (order : Comparator α) (window : Window α) (name : String) : Reading τ :=
  fun refs cursor =>
    match refs.reverse.find? fun entry => entry.name == name with
    | none => .error (.backrefMissing name)
    | some entry => do
        let atoms ← slice window.source entry.range.start entry.range.stop
        literal order window atoms.toList refs cursor

def skip (window : Window α) (count : Nat) : Reading τ := fun _ cursor =>
  if count ≤ window.left cursor then .ok (.matched (cursor + count) [] [])
  else .error (.advancePastLimit count window.limit cursor)

def failAt (window : Window α) (offset : Nat) : Reading τ := fun _ _ =>
  if offset ≤ window.source.size then .ok (.failed offset)
  else .error (.failureOutside offset window.source.size)

end Atoms

end Reading

namespace Matcher

variable {α τ ρ : Type} [Atom α]

mutual

def reading (order : Comparator α) (window : Window α) (call : ρ → Reading τ) :
    Matcher α τ ρ → Reading τ
  | .one kind => .one window (kind.test order)
  | .literal atoms => .literal order window atoms
  | .endOfInput => .endOfInput window
  | .seq steps => .sequence (readings order window call steps)
  | .seqOpt steps => .sequenceOpt (readings order window call steps)
  | .choice alternatives => .choice (readings order window call alternatives)
  | .nonEmpty inner => .nonEmpty (inner.reading order window call)
  | .star inner => fun refs cursor =>
      (inner.reading order window call).greedy (.stop .exhausted) (window.left cursor + 1) refs cursor
  | .plus inner =>
      (inner.reading order window call).thenIfMoved fun refs cursor =>
        (inner.reading order window call).greedy (.stop .exhausted) (window.left cursor + 1) refs
          cursor
  | .opt inner => .optional (inner.reading order window call)
  | .times count inner => .times (inner.reading order window call) count
  | .timesBetween least most inner =>
      (inner.reading order window call).atLeast
        ((inner.reading order window call).greedy .succeed (most - least)) least
  | .ahead inner => .ahead (inner.reading order window call)
  | .notAhead inner => .notAhead (inner.reading order window call)
  | .upTo inner => fun refs cursor =>
      (inner.reading order window call).upTo (window.left cursor) refs cursor
  | .block opening item closing =>
      (opening.reading order window call).andThen fun refs cursor =>
        Reading.blockRounds (item.reading order window call) (closing.reading order window call)
          (window.left cursor + 1) refs cursor
  | .list opening item separator closing =>
      (opening.reading order window call).andThen fun refs cursor =>
        Reading.listRounds (item.reading order window call) (separator.reading order window call)
          (closing.reading order window call) (window.left cursor + 1) refs cursor
  | .store name inner => .store name (inner.reading order window call)
  | .backref name => .backref order window name
  | .node tag bookmark inner => .node tag bookmark (inner.reading order window call)
  | .promote inner => .promote (inner.reading order window call)
  | .rule name => call name
  | .skip count => .skip window count
  | .failAt offset => .failAt window offset

def readings (order : Comparator α) (window : Window α) (call : ρ → Reading τ) :
    List (Matcher α τ ρ) → List (Reading τ)
  | [] => []
  | matcher :: rest => matcher.reading order window call :: readings order window call rest

end

end Matcher

theorem Matcher.readings_eq_map {α τ ρ : Type} [Atom α] (order : Comparator α) (window : Window α)
    (call : ρ → Reading τ) (matchers : List (Matcher α τ ρ)) :
    readings order window call matchers = matchers.map fun matcher =>
      matcher.reading order window call := by
  induction matchers with
  | nil => rfl
  | cons matcher rest ih => rw [readings, ih, List.map_cons]

namespace Grammar

variable {α τ ρ : Type} [Atom α]

def callReading (grammar : Grammar α τ ρ) (order : Comparator α) (window : Window α) :
    (depth : Nat) → ρ → Reading τ
  | 0, _ => .stop .exhausted
  | depth + 1, rule => (grammar rule).reading order window (callReading grammar order window depth)

def reading (grammar : Grammar α τ ρ) (order : Comparator α) (depth : Nat) (window : Window α)
    (matcher : Matcher α τ ρ) : Reading τ :=
  matcher.reading order window (grammar.callReading order window depth)

end Grammar

namespace Reading

/-! ## Known outcomes -/

variable {τ : Type} {reading : Reading τ} {rest : List (Reading τ)} {refs : List Backref}
  {cursor : Nat}

theorem resume_nil (second : Reading τ) (refs : List Backref) (next : Nat) :
    second.resume refs next [] [] = second refs next := by
  unfold Reading.resume
  rw [List.append_nil]
  cases second refs next with
  | error fault => rfl
  | ok outcome => cases outcome <;> rfl

theorem resume_of_matched {second : Reading τ} {next next' : Nat} {trees trees' : List (MarkedTree τ)}
    {stored stored' : List Backref}
    (found : second (refs ++ stored) next = .ok (.matched next' trees' stored')) :
    second.resume refs next trees stored =
      .ok (.matched next' (trees ++ trees') (stored ++ stored')) := by
  simp only [Reading.resume, found, Fault.ok_bind, Fault.pure_eq_ok, Outcome.after]

theorem resume_of_failed {second : Reading τ} {next offset : Nat} {stored : List Backref}
    (found : second (refs ++ stored) next = .ok (.failed offset)) (trees : List (MarkedTree τ)) :
    second.resume refs next trees stored = .ok (.failed offset) := by
  simp only [Reading.resume, found, Fault.ok_bind, Fault.pure_eq_ok, Outcome.after]

theorem exists_of_resume {second : Reading τ} {next next' : Nat} {trees trees' : List (MarkedTree τ)}
    {stored stored' : List Backref}
    (found : second.resume refs next trees stored = .ok (.matched next' trees' stored')) :
    ∃ more moreStored, second (refs ++ stored) next = .ok (.matched next' more moreStored) ∧
      trees' = trees ++ more ∧ stored' = stored ++ moreStored := by
  obtain ⟨outcome, found', after⟩ := Fault.bind_eq_ok.mp found
  cases outcome with
  | failed offset => cases after
  | matched _ more moreStored =>
      cases after
      exact ⟨more, moreStored, found', rfl, rfl⟩

theorem andThen_succeed (first : Reading τ) : first.andThen succeed = first := by
  funext refs cursor
  unfold Reading.andThen
  cases first refs cursor with
  | error fault => rfl
  | ok outcome =>
      cases outcome with
      | matched next trees stored => simp [Reading.resume, Reading.succeed, Outcome.after]
      | failed offset => rfl

theorem one_of_peek {α : Type} {window : Window α} {test : α → Except Fault Bool} {a : α}
    {passed : Bool} (peeked : window.peek? cursor = some a) (tested : test a = .ok passed)
    (refs : List Backref) : (one window test : Reading τ) refs cursor =
      .ok (if passed then .matched (cursor + 1) [] [] else .failed cursor) := by
  simp only [Reading.one, peeked, tested, Fault.ok_bind, Fault.pure_eq_ok]

theorem one_of_end {α : Type} {window : Window α} {test : α → Except Fault Bool}
    (peeked : window.peek? cursor = none) (refs : List Backref) :
    (one window test : Reading τ) refs cursor = .ok (.failed cursor) := by
  simp only [Reading.one, peeked]

theorem one_andThen_congr {α : Type} {second second' : Reading τ}
    (agree : ∀ cursor, second refs cursor = second' refs cursor) (window : Window α)
    (test : α → Except Fault Bool) :
    (one window test).andThen second refs cursor = (one window test).andThen second' refs cursor := by
  unfold andThen one
  cases window.peek? cursor with
  | none => rfl
  | some a =>
      dsimp only
      cases test a with
      | error fault => rfl
      | ok passed =>
          cases passed with
          | false => rfl
          | true =>
              have later := agree (cursor + 1)
              rw [← resume_nil second, ← resume_nil second'] at later
              exact later

theorem backref_of_slice {α : Type} {order : Comparator α} {window : Window α} {name : String}
    {entry : Backref} {atoms : Array α}
    (found : (refs.reverse.find? fun entry => entry.name == name) = some entry)
    (sliced : slice window.source entry.range.start entry.range.stop = .ok atoms) (cursor : Nat) :
    (backref order window name : Reading τ) refs cursor =
      literal order window atoms.toList refs cursor := by
  simp only [backref, found, sliced, Fault.ok_bind]

theorem firstOf_of_matched {next : Nat} {trees : List (MarkedTree τ)} {stored : List Backref}
    (found : reading refs cursor = .ok (.matched next trees stored)) (offset : Nat) :
    firstOf offset (reading :: rest) refs cursor = .ok (.matched next trees stored) := by
  simp only [firstOf, found, Fault.ok_bind, Fault.pure_eq_ok]

theorem firstOf_of_failed {furthest : Nat} (found : reading refs cursor = .ok (.failed furthest))
    (offset : Nat) :
    firstOf offset (reading :: rest) refs cursor = firstOf (max offset furthest) rest refs cursor := by
  simp only [firstOf, found, Fault.ok_bind]

theorem firstOf_of_member {before after : List (Reading τ)} {next : Nat}
    {trees : List (MarkedTree τ)} {stored : List Backref}
    (refused : ∀ other ∈ before, ∃ offset, other refs cursor = .ok (.failed offset))
    (found : reading refs cursor = .ok (.matched next trees stored)) (offset : Nat) :
    firstOf offset (before ++ reading :: after) refs cursor = .ok (.matched next trees stored) := by
  induction before generalizing offset with
  | nil => exact firstOf_of_matched found offset
  | cons other before ih =>
      rw [List.forall_mem_cons] at refused
      obtain ⟨⟨furthest, failed⟩, others⟩ := refused
      rw [List.cons_append, firstOf_of_failed failed]
      exact ih others _

theorem firstOf_of_none {readings : List (Reading τ)}
    (refused : ∀ other ∈ readings, ∃ offset, other refs cursor = .ok (.failed offset))
    (offset : Nat) : ∃ furthest, firstOf offset readings refs cursor = .ok (.failed furthest) := by
  induction readings generalizing offset with
  | nil => exact ⟨offset, rfl⟩
  | cons other readings ih =>
      rw [List.forall_mem_cons] at refused
      obtain ⟨⟨furthest, failed⟩, others⟩ := refused
      rw [firstOf_of_failed failed]
      exact ih others _

theorem andThen_of_matched {second : Reading τ} {next : Nat} {trees : List (MarkedTree τ)}
    {stored : List Backref} (found : reading refs cursor = .ok (.matched next trees stored)) :
    (reading.andThen second) refs cursor = second.resume refs next trees stored := by
  simp only [andThen, found, Fault.ok_bind]

theorem andThen_of_failed {second : Reading τ} {offset : Nat}
    (found : reading refs cursor = .ok (.failed offset)) :
    (reading.andThen second) refs cursor = .ok (.failed offset) := by
  simp only [andThen, found, Fault.ok_bind, Fault.pure_eq_ok]

theorem after_resume (second : Reading τ) (refs : List Backref) (next : Nat)
    (trees trees' : List (MarkedTree τ)) (stored stored' : List Backref) :
    (second.resume (refs ++ stored) next trees' stored' >>= fun outcome =>
        .ok (outcome.after trees stored)) =
      second.resume refs next (trees ++ trees') (stored ++ stored') := by
  unfold resume
  rw [List.append_assoc]
  cases second (refs ++ (stored ++ stored')) next with
  | error fault => rfl
  | ok outcome =>
      cases outcome with
      | matched cursor more moreStored =>
          simp only [Fault.ok_bind, Fault.pure_eq_ok, Outcome.after, List.append_assoc]
      | failed offset => rfl

theorem andThen_assoc (first second third : Reading τ) :
    (first.andThen second).andThen third = first.andThen (second.andThen third) := by
  funext refs cursor
  cases found : first refs cursor with
  | error fault => simp only [andThen, found, Fault.error_bind]
  | ok outcome =>
      cases outcome with
      | failed offset => rw [andThen_of_failed found, andThen_of_failed (andThen_of_failed found)]
      | matched next trees stored =>
          rw [andThen_of_matched found]
          cases found' : second (refs ++ stored) next with
          | error fault => simp only [andThen, resume, found, found', Fault.ok_bind, Fault.error_bind]
          | ok outcome =>
              cases outcome with
              | failed offset =>
                  have whole := (andThen_of_matched found).trans (resume_of_failed found' trees)
                  rw [andThen_of_failed whole, resume_of_failed (andThen_of_failed found')]
              | matched next' trees' stored' =>
                  have whole := (andThen_of_matched found).trans (resume_of_matched found')
                  rw [andThen_of_matched whole, ← after_resume, ← andThen_of_matched found']
                  rfl

section Closing

variable {closing other after : Reading τ} {next : Nat} {trees : List (MarkedTree τ)}
  {stored : List Backref} {unclosed offset : Nat}

theorem closeOr_of_closed (closed : closing refs cursor = .ok (.matched next trees stored)) :
    closing.closeOr other after refs cursor = .ok (.matched next trees stored) := by
  simp only [closeOr, closed, Fault.ok_bind, Fault.pure_eq_ok]

theorem closeOr_of_matched (notYet : closing refs cursor = .ok (.failed unclosed))
    (found : other refs cursor = .ok (.matched next trees stored)) :
    closing.closeOr other after refs cursor = after.resume refs next trees stored := by
  simp only [closeOr, notYet, found, Fault.ok_bind]

theorem closeOr_of_failed (notYet : closing refs cursor = .ok (.failed unclosed))
    (found : other refs cursor = .ok (.failed offset)) :
    closing.closeOr other after refs cursor = .ok (.failed (max unclosed offset)) := by
  simp only [closeOr, notYet, found, Fault.ok_bind, Fault.pure_eq_ok]

end Closing

theorem optional_of_matched {next : Nat} {trees : List (MarkedTree τ)} {stored : List Backref}
    (found : reading refs cursor = .ok (.matched next trees stored)) :
    reading.optional refs cursor = .ok (.matched next trees stored) := by
  simp only [optional, found, Fault.ok_bind, Fault.pure_eq_ok]

theorem optional_of_failed {offset : Nat} (found : reading refs cursor = .ok (.failed offset)) :
    reading.optional refs cursor = .ok (.matched cursor [] []) := by
  simp only [optional, found, Fault.ok_bind, Fault.pure_eq_ok]

/-- An option of what does not fail is no option. -/
theorem optional_of_not_failed (matching : ∀ offset, reading refs cursor ≠ .ok (.failed offset)) :
    reading.optional refs cursor = reading refs cursor := by
  unfold optional
  cases found : reading refs cursor with
  | error fault => rfl
  | ok outcome =>
      cases outcome with
      | matched next trees stored => rfl
      | failed offset => exact absurd found (matching offset)

section Repeating

variable {second last : Reading τ} {next offset rounds : Nat} {trees : List (MarkedTree τ)}
  {stored : List Backref}

theorem greedy_of_failed (found : reading refs cursor = .ok (.failed offset)) :
    reading.greedy last (rounds + 1) refs cursor = .ok (.matched cursor [] []) := by
  simp only [greedy, found, Fault.ok_bind, Fault.pure_eq_ok]

theorem greedy_of_rested (found : reading refs cursor = .ok (.matched cursor trees stored)) :
    reading.greedy last (rounds + 1) refs cursor = .ok (.matched cursor trees stored) := by
  simp only [greedy, found, Fault.ok_bind, if_true, Fault.pure_eq_ok]

theorem greedy_of_moved (found : reading refs cursor = .ok (.matched next trees stored))
    (moved : next ≠ cursor) : reading.greedy last (rounds + 1) refs cursor =
      (reading.greedy last rounds).resume refs next trees stored := by
  simp only [greedy, found, Fault.ok_bind, if_neg moved]

theorem thenIfMoved_of_failed (found : reading refs cursor = .ok (.failed offset)) :
    reading.thenIfMoved second refs cursor = .ok (.failed offset) := by
  simp only [thenIfMoved, found, Fault.ok_bind, Fault.pure_eq_ok]

theorem thenIfMoved_of_rested (found : reading refs cursor = .ok (.matched cursor trees stored)) :
    reading.thenIfMoved second refs cursor = .ok (.matched cursor trees stored) := by
  simp only [thenIfMoved, found, Fault.ok_bind, if_true, Fault.pure_eq_ok]

theorem thenIfMoved_of_moved (found : reading refs cursor = .ok (.matched next trees stored))
    (moved : next ≠ cursor) :
    reading.thenIfMoved second refs cursor = second.resume refs next trees stored := by
  simp only [thenIfMoved, found, Fault.ok_bind, if_neg moved]

theorem greedy_of_not_failed (matching : ∀ offset, reading refs cursor ≠ .ok (.failed offset)) :
    reading.greedy last (rounds + 1) refs cursor =
      reading.thenIfMoved (reading.greedy last rounds) refs cursor := by
  cases read : reading refs cursor with
  | error fault => simp only [greedy, thenIfMoved, read, Fault.error_bind]
  | ok outcome =>
      cases outcome with
      | matched next trees stored => simp only [greedy, thenIfMoved, read, Fault.ok_bind]
      | failed offset => exact absurd read (matching offset)

end Repeating

theorem node_of_matched {next : Nat} {trees : List (MarkedTree τ)} {stored : List Backref}
    (found : reading refs cursor = .ok (.matched next trees stored)) (tag : Option τ)
    (bookmark : Bool) :
    reading.node tag bookmark refs cursor =
      .ok (.matched next [.node tag cursor next bookmark (trees.map MarkedTree.unmark)] stored) := by
  simp only [node, building, found, Fault.ok_bind, Fault.pure_eq_ok]

theorem node_of_failed {offset : Nat} (found : reading refs cursor = .ok (.failed offset))
    (tag : Option τ) (bookmark : Bool) :
    reading.node tag bookmark refs cursor = .ok (.failed offset) := by
  simp only [node, building, found, Fault.ok_bind, Fault.pure_eq_ok]

end Reading

end PegForest
