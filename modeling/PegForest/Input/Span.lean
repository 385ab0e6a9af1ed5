import PegForest.Input.Range

/-!
# Spans

A span is a place in an input: either the atoms still to be matched, from a cursor up to a limit,
or the offset at which matching failed.  Offsets count from the start of the whole input, also
when the span covers a part of it.
-/

set_option autoImplicit false

namespace PegForest

variable {α : Type}

inductive Span (α : Type) where
  | valid (source : Array α) (cursor limit : Nat)
  | failed (source : Array α) (offset : Nat)

namespace Span

def whole (source : Array α) : Span α :=
  .valid source 0 source.size

def between (source : Array α) (cursor limit : Nat) : Except Fault (Span α) :=
  if cursor ≤ limit ∧ limit ≤ source.size then .ok (.valid source cursor limit)
  else .error (.spanBounds cursor limit source.size)

def source : Span α → Array α
  | valid source _ _ => source
  | failed source _ => source

def isValid : Span α → Bool
  | valid .. => true
  | failed .. => false

/-- Whether nothing is left to match; a failed span is not empty. -/
def isEmpty : Span α → Bool
  | valid _ cursor limit => cursor == limit
  | failed .. => false

def cursor? : Span α → Option Nat
  | valid _ cursor _ => some cursor
  | failed .. => none

/-- The end of the atoms to match, or the offset of the failure. -/
def limit : Span α → Nat
  | valid _ _ limit => limit
  | failed _ offset => offset

def failure? : Span α → Option Nat
  | valid .. => none
  | failed _ offset => some offset

def position : Span α → Nat
  | valid _ cursor _ => cursor
  | failed _ offset => offset

def failAt (span : Span α) (offset : Nat) : Except Fault (Span α) :=
  if offset ≤ span.source.size then .ok (.failed span.source offset)
  else .error (.failureOutside offset span.source.size)

/-- Fail at the cursor; a failed span stays as it is. -/
def fail (span : Span α) : Except Fault (Span α) :=
  match span with
  | valid _ cursor _ => span.failAt cursor
  | failed .. => .ok span

/-- The span that lies further into the input, the first one if neither does. -/
def furthest (span other : Span α) : Span α :=
  if span.position < other.position then other else span

def peek? : Span α → Option α
  | valid source cursor limit => if cursor < limit then source[cursor]? else none
  | failed .. => none

/-- Move the cursor over `count` atoms, all of which have to be there. -/
def advance (span : Span α) (count : Nat) : Except Fault (Span α) :=
  match span with
  | valid source cursor limit =>
      if count ≤ limit - cursor then .ok (.valid source (cursor + count) limit)
      else .error (.advancePastLimit count limit cursor)
  | failed .. => .error .advanceFailed

def remaining : Span α → Array α
  | valid source cursor limit => source.extract cursor limit
  | failed .. => #[]

/-- The atoms between the cursors of two valid spans, none if they stand the other way round. -/
def consumedSince (span start : Span α) : Array α :=
  match start.cursor?, span.cursor? with
  | some first, some last => if first ≤ last then span.source.extract first last else #[]
  | _, _ => #[]

def describe : Span α → String
  | valid _ cursor limit => s!"Span({cursor}..{limit})"
  | failed _ offset => s!"Span(failed at {offset})"

end Span

end PegForest
