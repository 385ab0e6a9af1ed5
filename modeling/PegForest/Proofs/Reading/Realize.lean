import PegForest.Matcher.OnSpan
import PegForest.Proofs.Context.Track
import PegForest.Proofs.Reading.Advance

/-!
# Actions realize readings

An action changes a context and takes changes back; a reading changes nothing.  The action realizes
the reading when, on every context that tracks trees and backreferences, both stop with the same
fault or both answer alike: after a match the context tracks what the reading adds, at the end of
what was there; after a failure it still tracks what was there, with something left behind at the
end.

What a failure leaves behind is not said, and need not be: every combinator that goes on after a
failure first rewinds to the checkpoint from before, and a rewind needs only that the old trees and
backreferences are still the first ones.
-/

set_option autoImplicit false

namespace PegForest

open MarkedTree

variable {τ : Type}

/-- What an outcome tells about a verdict and the context that comes with it. -/
inductive Tells (builds : Bool) (refs : List Backref) (trees : List (MarkedTree τ)) :
    Verdict × Context τ → Outcome τ → Prop where
  | matched {ctx : Context τ} {next : Nat} {new : List (MarkedTree τ)} {stored : List Backref}
      (tracks : ctx.Tracks (refs ++ stored) (trees ++ new) builds) :
      Tells builds refs trees (.matched next, ctx) (.matched next new stored)
  | failed {ctx : Context τ} {offset : Nat} {left : List (MarkedTree τ)} {forgotten : List Backref}
      (tracks : ctx.Tracks (refs ++ forgotten) (trees ++ left) builds) :
      Tells builds refs trees (.failed offset, ctx) (.failed offset)

inductive TellsClean (builds : Bool) (refs : List Backref) (trees : List (MarkedTree τ)) :
    Verdict × Context τ → Outcome τ → Prop where
  | matched {ctx : Context τ} {next : Nat} {new : List (MarkedTree τ)} {stored : List Backref}
      (tracks : ctx.Tracks (refs ++ stored) (trees ++ new) builds) :
      TellsClean builds refs trees (.matched next, ctx) (.matched next new stored)
  | failed {ctx : Context τ} {offset : Nat} (tracks : ctx.Tracks refs trees builds) :
      TellsClean builds refs trees (.failed offset, ctx) (.failed offset)

inductive TellsOnly (builds : Bool) (refs : List Backref) (trees : List (MarkedTree τ)) :
    Verdict × Context τ → Outcome τ → Prop where
  | matched {ctx : Context τ} {next : Nat} {new : List (MarkedTree τ)} {stored : List Backref}
      (tracks : ctx.Tracks refs trees builds) :
      TellsOnly builds refs trees (.matched next, ctx) (.matched next new stored)
  | failed {ctx : Context τ} {offset : Nat} (tracks : ctx.Tracks refs trees builds) :
      TellsOnly builds refs trees (.failed offset, ctx) (.failed offset)

variable {builds : Bool} {ctx : Context τ} {refs stored : List Backref}
  {trees new : List (MarkedTree τ)} {cursor : Nat}

theorem Tells.fails (tracks : ctx.Tracks refs trees builds) (offset : Nat) :
    Tells builds refs trees (.failed offset, ctx) (.failed offset) := by
  have extended : ctx.Tracks (refs ++ []) (trees ++ []) builds := by simpa using tracks
  exact .failed extended

theorem Tells.stays (tracks : ctx.Tracks refs trees builds) (cursor : Nat) :
    Tells builds refs trees (.matched cursor, ctx) (.matched cursor [] []) :=
  .matched (by simpa using tracks)

theorem Tells.after {answer : Verdict × Context τ} {outcome : Outcome τ}
    (tells : Tells builds (refs ++ stored) (trees ++ new) answer outcome) :
    Tells builds refs trees answer (outcome.after new stored) := by
  cases tells with
  | matched tracks => exact .matched (by simpa using tracks)
  | failed tracks =>
      rw [List.append_assoc, List.append_assoc] at tracks
      exact .failed tracks

/-- The action answers as the reading does. -/
def Action.Realizes (action : Action τ) (reading : Reading τ) : Prop :=
  ∀ builds ctx refs trees cursor, ctx.Tracks refs trees builds →
    Agree (Tells builds refs trees) (action ctx cursor) (reading refs cursor)

namespace Action

variable {action first second other last item separator closing : Action τ}
  {reading reading₁ reading₂ reading₃ : Reading τ}

/-! ## Attempts and probes -/

theorem Realizes.attempt (realizes : action.Realizes reading) (cursor : Nat)
    (tracks : ctx.Tracks refs trees builds) :
    Agree (TellsClean builds refs trees) (action.attempt ctx cursor) (reading refs cursor) := by
  rw [← bind_pure (reading refs cursor)]
  refine .bind (realizes builds ctx refs trees cursor tracks) ?_
  rintro _ _ - (⟨tracks'⟩ | ⟨tracks'⟩)
  · exact .ok (.matched tracks')
  · obtain ⟨ctx', rewound, tracks''⟩ := tracks.rewind_checkpoint tracks'
    exact .step rewound (.ok (.failed tracks''))

theorem Realizes.probe (realizes : action.Realizes reading) (cursor : Nat)
    (tracks : ctx.Tracks refs trees builds) :
    Agree (TellsOnly builds refs trees) (action.probe ctx cursor) (reading refs cursor) := by
  rw [← bind_pure (reading refs cursor)]
  refine .bind (realizes builds ctx refs trees cursor tracks) ?_
  rintro _ _ - (⟨tracks'⟩ | ⟨tracks'⟩)
  · obtain ⟨ctx', rewound, tracks''⟩ := tracks.rewind_checkpoint tracks'
    exact .step rewound (.ok (.matched tracks''))
  · obtain ⟨ctx', rewound, tracks''⟩ := tracks.rewind_checkpoint tracks'
    exact .step rewound (.ok (.failed tracks''))

/-! ## Sequences and choices -/

theorem realizes_succeed : (succeed : Action τ).Realizes .succeed := by
  intro builds ctx refs trees cursor tracks
  exact .ok (.stays tracks cursor)

theorem realizes_stop (fault : Fault) : (stop fault : Action τ).Realizes (.stop fault) := by
  intro builds ctx refs trees cursor tracks
  exact .error fault

/-- Going on from where a match has ended. -/
theorem Realizes.resume (realizes : second.Realizes reading) (next : Nat)
    (tracks : ctx.Tracks (refs ++ stored) (trees ++ new) builds) :
    Agree (Tells builds refs trees) (second ctx next) (reading.resume refs next new stored) := by
  rw [← bind_pure (second ctx next)]
  refine .bind (realizes builds ctx _ _ next tracks) ?_
  intro answer outcome _ tells
  exact .ok tells.after

theorem Realizes.andThen (realizes : first.Realizes reading₁) (realizes' : second.Realizes reading₂) :
    (first.andThen second).Realizes (reading₁.andThen reading₂) := by
  intro builds ctx refs trees cursor tracks
  refine .bind (realizes builds ctx refs trees cursor tracks) ?_
  rintro _ _ - (⟨tracks'⟩ | ⟨tracks'⟩)
  · exact realizes'.resume _ tracks'
  · exact .ok (.failed tracks')

theorem Realizes.sequence {actions : List (Action τ)} {readings : List (Reading τ)}
    (realizes : List.Forall₂ Realizes actions readings) :
    (sequence actions).Realizes (.sequence readings) := by
  induction realizes with
  | nil => exact realizes_succeed
  | cons here _ ih => exact here.andThen ih

theorem Realizes.sequenceOpt {actions : List (Action τ)} {readings : List (Reading τ)}
    (realizes : List.Forall₂ Realizes actions readings) :
    (sequenceOpt actions).Realizes (.sequenceOpt readings) := by
  induction realizes with
  | nil => exact realizes_succeed
  | cons here _ ih =>
      intro builds ctx refs trees cursor tracks
      refine .bind (here.attempt cursor tracks) ?_
      rintro _ _ - (⟨tracks'⟩ | ⟨tracks'⟩)
      · exact ih.resume _ tracks'
      · exact .ok (.stays tracks' cursor)

theorem Realizes.firstOf {actions : List (Action τ)} {readings : List (Reading τ)}
    (realizes : List.Forall₂ Realizes actions readings) (offset : Nat) :
    (firstOf offset actions).Realizes (.firstOf offset readings) := by
  induction realizes generalizing offset with
  | nil =>
      intro builds ctx refs trees cursor tracks
      exact .ok (.fails tracks offset)
  | cons here _ ih =>
      intro builds ctx refs trees cursor tracks
      refine .bind (here.attempt cursor tracks) ?_
      rintro _ _ - (⟨tracks'⟩ | @⟨ctx', furthest, tracks'⟩)
      · exact .ok (.matched tracks')
      · exact ih (max offset furthest) builds ctx' refs trees cursor tracks'

theorem Realizes.choice {actions : List (Action τ)} {readings : List (Reading τ)}
    (realizes : List.Forall₂ Realizes actions readings) :
    (choice actions).Realizes (.choice readings) := by
  intro builds ctx refs trees cursor tracks
  exact Realizes.firstOf realizes cursor builds ctx refs trees cursor tracks

theorem Realizes.nonEmpty (realizes : action.Realizes reading) :
    action.nonEmpty.Realizes reading.nonEmpty := by
  intro builds ctx refs trees cursor tracks
  refine .bind (realizes builds ctx refs trees cursor tracks) ?_
  rintro _ _ - (⟨tracks'⟩ | ⟨tracks'⟩)
  · dsimp only
    split
    · obtain ⟨ctx', rewound, tracks''⟩ := tracks.rewind_checkpoint tracks'
      exact .step rewound (.ok (.fails tracks'' cursor))
    · exact .ok (.matched tracks')
  · exact .ok (.failed tracks')

theorem Realizes.optional (realizes : action.Realizes reading) :
    action.optional.Realizes reading.optional := by
  intro builds ctx refs trees cursor tracks
  refine .bind (realizes.attempt cursor tracks) ?_
  rintro _ _ - (⟨tracks'⟩ | ⟨tracks'⟩)
  · exact .ok (.matched tracks')
  · exact .ok (.stays tracks' cursor)

theorem Realizes.ahead (realizes : action.Realizes reading) :
    action.ahead.Realizes reading.ahead := by
  intro builds ctx refs trees cursor tracks
  refine .bind (realizes.probe cursor tracks) ?_
  rintro _ _ - (⟨tracks'⟩ | ⟨tracks'⟩)
  · exact .ok (.stays tracks' cursor)
  · exact .ok (.fails tracks' _)

theorem Realizes.notAhead (realizes : action.Realizes reading) :
    action.notAhead.Realizes reading.notAhead := by
  intro builds ctx refs trees cursor tracks
  refine .bind (realizes.probe cursor tracks) ?_
  rintro _ _ - (⟨tracks'⟩ | ⟨tracks'⟩)
  · exact .ok (.fails tracks' cursor)
  · exact .ok (.stays tracks' cursor)

/-! ## Storing and building -/

theorem Realizes.store (realizes : action.Realizes reading) (name : String) :
    (action.store name).Realizes (reading.store name) := by
  intro builds ctx refs trees cursor tracks
  refine .bind (realizes builds ctx refs trees cursor tracks) ?_
  rintro _ _ - (@⟨ctx', next, new, stored, tracks'⟩ | ⟨tracks'⟩)
  · obtain ⟨ctx'', kept, tracks''⟩ := tracks'.storeRef name ⟨cursor, next⟩
    rw [List.append_assoc] at tracks''
    exact .step kept (.ok (.matched tracks''))
  · exact .ok (.failed tracks')

/-- A change of the forest that does to the trees since the watermark what `change'` says. -/
theorem Realizes.building {limit : Nat} (realizes : action.Realizes reading)
    (advances : reading.Advances limit)
    {change : Context τ → Option NodeId → Nat → Nat → Except Fault (Context τ)}
    {change' : Nat → Nat → List (MarkedTree τ) → List (MarkedTree τ)}
    (changes : ∀ {builds : Bool} {ctx ctx' : Context τ} {refs refs' : List Backref}
      {trees new : List (MarkedTree τ)} {start stop : Nat}, ctx.Tracks refs trees builds →
      ctx'.Tracks refs' (trees ++ new) builds → start ≤ stop → Covers start stop new →
      ∃ ctx'', change ctx' ctx.watermark start stop = .ok ctx'' ∧
        ctx''.Tracks refs' (trees ++ change' start stop new) builds) :
    (action.building change).Realizes (reading.building change') := by
  intro builds ctx refs trees cursor tracks
  refine .bind (realizes.attempt cursor tracks) ?_
  rintro _ _ found (⟨tracks'⟩ | ⟨tracks'⟩)
  · have moved := advances refs cursor _ found
    obtain ⟨ctx'', changed, tracks''⟩ := changes tracks tracks' moved.forward moved.covers
    exact .step changed (.ok (.matched tracks''))
  · exact .ok (.fails tracks' _)

theorem Realizes.node {limit : Nat} (realizes : action.Realizes reading)
    (advances : reading.Advances limit) (tag : Option τ) (bookmark : Bool) :
    (action.node tag bookmark).Realizes (reading.node tag bookmark) :=
  realizes.building advances fun before after forward covers =>
    before.close after forward covers tag bookmark

theorem Realizes.promote {limit : Nat} (realizes : action.Realizes reading)
    (advances : reading.Advances limit) : action.promote.Realizes reading.promote :=
  realizes.building advances fun before after _ covers => before.promote after covers

/-! ## Loops -/

theorem Realizes.greedy (realizes : action.Realizes reading₁) (realizes' : last.Realizes reading₂)
    (rounds : Nat) : (action.greedy last rounds).Realizes (reading₁.greedy reading₂ rounds) := by
  induction rounds with
  | zero => exact realizes'
  | succ rounds ih =>
      intro builds ctx refs trees cursor tracks
      refine .bind (realizes.attempt cursor tracks) ?_
      rintro _ _ - (⟨tracks'⟩ | ⟨tracks'⟩)
      · dsimp only
        split
        · exact .ok (.matched tracks')
        · exact ih.resume _ tracks'
      · exact .ok (.stays tracks' cursor)

theorem Realizes.thenIfMoved (realizes : first.Realizes reading₁)
    (realizes' : second.Realizes reading₂) :
    (first.thenIfMoved second).Realizes (reading₁.thenIfMoved reading₂) := by
  intro builds ctx refs trees cursor tracks
  refine .bind (realizes builds ctx refs trees cursor tracks) ?_
  rintro _ _ - (⟨tracks'⟩ | ⟨tracks'⟩)
  · dsimp only
    split
    · exact .ok (.matched tracks')
    · exact realizes'.resume _ tracks'
  · exact .ok (.failed tracks')

theorem Realizes.times (realizes : action.Realizes reading) (count : Nat) :
    (action.times count).Realizes (reading.times count) := by
  induction count with
  | zero => exact realizes_succeed
  | succ count ih => exact realizes.andThen ih

theorem Realizes.atLeast (realizes : action.Realizes reading₁) (realizes' : other.Realizes reading₂)
    (count : Nat) : (action.atLeast other count).Realizes (reading₁.atLeast reading₂ count) := by
  induction count with
  | zero => exact realizes'
  | succ count ih => exact realizes.thenIfMoved ih

theorem Realizes.upTo (realizes : action.Realizes reading) (left : Nat) :
    (action.upTo left).Realizes (reading.upTo left) := by
  induction left with
  | zero =>
      intro builds ctx refs trees cursor tracks
      refine .bind (realizes.probe cursor tracks) ?_
      rintro _ _ - (⟨tracks'⟩ | ⟨tracks'⟩)
      · exact .ok (.stays tracks' cursor)
      · exact .ok (.fails tracks' cursor)
  | succ left ih =>
      intro builds ctx refs trees cursor tracks
      refine .bind (realizes.probe cursor tracks) ?_
      rintro _ _ - (⟨tracks'⟩ | ⟨tracks'⟩)
      · exact .ok (.stays tracks' cursor)
      · exact ih builds _ refs trees (cursor + 1) tracks'

theorem Realizes.closeOr (realizes : closing.Realizes reading₁) (realizes' : other.Realizes reading₂)
    (realizes'' : second.Realizes reading₃) :
    (closing.closeOr other second).Realizes (reading₁.closeOr reading₂ reading₃) := by
  intro builds ctx refs trees cursor tracks
  refine .bind (realizes.attempt cursor tracks) ?_
  rintro _ _ - (⟨tracks'⟩ | ⟨tracks'⟩)
  · exact .ok (.matched tracks')
  · refine .bind (realizes' builds _ refs trees cursor tracks') ?_
    rintro _ _ - (⟨tracks''⟩ | ⟨tracks''⟩)
    · exact realizes''.resume _ tracks''
    · exact .ok (.failed tracks'')

theorem Realizes.blockRounds (realizes : item.Realizes reading₁)
    (realizes' : closing.Realizes reading₂) (rounds : Nat) :
    (item.blockRounds closing rounds).Realizes (reading₁.blockRounds reading₂ rounds) := by
  induction rounds with
  | zero => exact realizes_stop .exhausted
  | succ rounds ih =>
      intro builds ctx refs trees cursor tracks
      refine realizes'.closeOr realizes ?_ builds ctx refs trees cursor tracks
      intro builds ctx refs trees next tracks
      dsimp only
      split
      · exact .ok (.fails tracks cursor)
      · exact ih builds ctx refs trees next tracks

theorem Realizes.listRounds (realizes : item.Realizes reading₁)
    (realizes' : separator.Realizes reading₂) (realizes'' : closing.Realizes reading₃)
    (rounds : Nat) :
    (item.listRounds separator closing rounds).Realizes
      (reading₁.listRounds reading₂ reading₃ rounds) := by
  induction rounds with
  | zero => exact realizes_stop .exhausted
  | succ rounds ih =>
      intro builds ctx refs trees cursor tracks
      refine realizes''.closeOr realizes ?_ builds ctx refs trees cursor tracks
      intro builds ctx refs trees afterItem tracks
      refine realizes''.closeOr realizes' ?_ builds ctx refs trees afterItem tracks
      intro builds ctx refs trees next tracks
      dsimp only
      split
      · exact .ok (.fails tracks afterItem)
      · exact ih builds ctx refs trees next tracks

/-! ## Atoms -/

section Atoms

variable {α : Type} {window : Window α}

theorem realizes_one (test : α → Except Fault Bool) :
    (one window test : Action τ).Realizes (.one window test) := by
  intro builds ctx refs trees cursor tracks
  unfold Action.one Reading.one
  cases window.peek? cursor with
  | none => exact .ok (.fails tracks cursor)
  | some a =>
      cases passes : test a with
      | error fault =>
          simp only [passes]
          exact .error fault
      | ok passed =>
          simp only [passes]
          cases passed with
          | false => exact .ok (.fails tracks cursor)
          | true => exact .ok (.stays tracks (cursor + 1))

theorem realizes_literal (order : Comparator α) (atoms : List α) :
    (literal order window atoms : Action τ).Realizes (.literal order window atoms) := by
  induction atoms with
  | nil => exact realizes_succeed
  | cons expected rest ih =>
      intro builds ctx refs trees cursor tracks
      unfold Action.literal Reading.literal
      cases window.peek? cursor with
      | none => exact .ok (.fails tracks cursor)
      | some a =>
          by_cases same : order.same a expected = true
          · simp only [if_pos same]
            exact ih builds ctx refs trees (cursor + 1) tracks
          · simp only [if_neg same]
            exact .ok (.fails tracks cursor)

theorem realizes_endOfInput : (endOfInput window : Action τ).Realizes (.endOfInput window) := by
  intro builds ctx refs trees cursor tracks
  refine .ok ?_
  by_cases atEnd : cursor = window.limit
  · rw [if_pos atEnd, if_pos atEnd]
    exact .stays tracks cursor
  · rw [if_neg atEnd, if_neg atEnd]
    exact .fails tracks cursor

theorem realizes_backref (order : Comparator α) (name : String) :
    (backref order window name : Action τ).Realizes (.backref order window name) := by
  intro builds ctx refs trees cursor tracks
  unfold Action.backref Reading.backref
  rw [tracks.getRef name]
  cases refs.reverse.find? fun entry => entry.name == name with
  | none => exact .error _
  | some entry =>
      simp only [Fault.ok_bind]
      cases slice window.source entry.range.start entry.range.stop with
      | error fault => exact .error fault
      | ok atoms => exact realizes_literal order atoms.toList builds ctx refs trees cursor tracks

theorem realizes_skip (count : Nat) : (skip window count : Action τ).Realizes (.skip window count) := by
  intro builds ctx refs trees cursor tracks
  unfold Action.skip Reading.skip
  by_cases enough : count ≤ window.left cursor
  · rw [if_pos enough, if_pos enough]
    exact .ok (.stays tracks (cursor + count))
  · rw [if_neg enough, if_neg enough]
    exact .error _

theorem realizes_failAt (offset : Nat) :
    (failAt window offset : Action τ).Realizes (.failAt window offset) := by
  intro builds ctx refs trees cursor tracks
  unfold Action.failAt Reading.failAt
  by_cases inside : offset ≤ window.source.size
  · rw [if_pos inside, if_pos inside]
    exact .ok (.fails tracks offset)
  · rw [if_neg inside, if_neg inside]
    exact .error _

end Atoms

end Action

/-! ## Matchers -/

variable {α ρ : Type} [Atom α] {order : Comparator α} {window : Window α}

mutual

theorem Matcher.eval_realizes {call : ρ → Action τ} {call' : ρ → Reading τ}
    (calls : ∀ rule, (call rule).Realizes (call' rule))
    (advances : ∀ rule, (call' rule).Advances window.limit) :
    ∀ matcher : Matcher α τ ρ,
      (matcher.eval order window call).Realizes (matcher.reading order window call')
  | .one kind => Action.realizes_one (kind.test order)
  | .literal atoms => Action.realizes_literal order atoms
  | .endOfInput => Action.realizes_endOfInput
  | .seq steps => .sequence (Matcher.evalAll_realizes calls advances steps)
  | .seqOpt steps => .sequenceOpt (Matcher.evalAll_realizes calls advances steps)
  | .choice alternatives => .choice (Matcher.evalAll_realizes calls advances alternatives)
  | .nonEmpty inner => (Matcher.eval_realizes calls advances inner).nonEmpty
  | .star inner => fun builds ctx refs trees cursor =>
      (Matcher.eval_realizes calls advances inner).greedy (Action.realizes_stop _) _ builds ctx refs
        trees cursor
  | .plus inner =>
      (Matcher.eval_realizes calls advances inner).thenIfMoved fun builds ctx refs trees cursor =>
        (Matcher.eval_realizes calls advances inner).greedy (Action.realizes_stop _) _ builds ctx refs
          trees cursor
  | .opt inner => (Matcher.eval_realizes calls advances inner).optional
  | .times count inner => (Matcher.eval_realizes calls advances inner).times count
  | .timesBetween least most inner =>
      (Matcher.eval_realizes calls advances inner).atLeast
        ((Matcher.eval_realizes calls advances inner).greedy Action.realizes_succeed (most - least))
        least
  | .ahead inner => (Matcher.eval_realizes calls advances inner).ahead
  | .notAhead inner => (Matcher.eval_realizes calls advances inner).notAhead
  | .upTo inner => fun builds ctx refs trees cursor =>
      (Matcher.eval_realizes calls advances inner).upTo _ builds ctx refs trees cursor
  | .block opening item closing =>
      (Matcher.eval_realizes calls advances opening).andThen fun builds ctx refs trees cursor =>
        (Matcher.eval_realizes calls advances item).blockRounds
          (Matcher.eval_realizes calls advances closing) _ builds ctx refs trees cursor
  | .list opening item separator closing =>
      (Matcher.eval_realizes calls advances opening).andThen fun builds ctx refs trees cursor =>
        (Matcher.eval_realizes calls advances item).listRounds
          (Matcher.eval_realizes calls advances separator)
          (Matcher.eval_realizes calls advances closing) _ builds ctx refs trees cursor
  | .store name inner => (Matcher.eval_realizes calls advances inner).store name
  | .backref name => Action.realizes_backref order name
  | .node tag bookmark inner =>
      (Matcher.eval_realizes calls advances inner).node (Matcher.advances advances inner) tag bookmark
  | .promote inner =>
      (Matcher.eval_realizes calls advances inner).promote (Matcher.advances advances inner)
  | .rule name => calls name
  | .skip count => Action.realizes_skip count
  | .failAt offset => Action.realizes_failAt offset

theorem Matcher.evalAll_realizes {call : ρ → Action τ} {call' : ρ → Reading τ}
    (calls : ∀ rule, (call rule).Realizes (call' rule))
    (advances : ∀ rule, (call' rule).Advances window.limit) :
    ∀ matchers : List (Matcher α τ ρ),
      List.Forall₂ Action.Realizes (Matcher.evalAll order window call matchers)
        (Matcher.readings order window call' matchers)
  | [] => .nil
  | matcher :: rest =>
      .cons (Matcher.eval_realizes calls advances matcher)
        (Matcher.evalAll_realizes calls advances rest)

end

theorem Grammar.call_realizes (grammar : Grammar α τ ρ) (depth : Nat) (rule : ρ) :
    (grammar.call order window depth rule).Realizes
      (grammar.callReading order window depth rule) := by
  induction depth generalizing rule with
  | zero => exact Action.realizes_stop .exhausted
  | succ depth ih => exact Matcher.eval_realizes ih (grammar.advances_call depth) (grammar rule)

/-- What a match does to a context is what its reading says. -/
theorem Grammar.run_realizes (grammar : Grammar α τ ρ) (depth : Nat) (matcher : Matcher α τ ρ) :
    (grammar.run order depth window matcher).Realizes
      (grammar.reading order depth window matcher) :=
  Matcher.eval_realizes (grammar.call_realizes depth) (grammar.advances_call depth) matcher

end PegForest
