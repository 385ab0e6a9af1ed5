import PegForest.Proofs.Context.Rewind
import PegForest.Proofs.Erasure
import PegForest.Proofs.Session

/-!
# Matches that build nothing

A matcher without nodes leaves the forest and the log as they are, and not only the trees that the
forest represents: no node is made, so all that is ever taken back are stored ranges, and a rewind
that has no root to drop gives back the same forest and logs nothing.
-/

set_option autoImplicit false

namespace PegForest

namespace Context

variable {τ : Type} {entry ctx : Context τ}

/-- Nothing has been built, dropped or logged since; what is stored may differ. -/
def Untouched (entry ctx : Context τ) : Prop :=
  ctx.forest = entry.forest ∧ ctx.log = entry.log

def Settled (entry : Context τ) : Prop :=
  ∀ before ctx, entry.Untouched before → entry.Untouched ctx →
    Yields entry.Untouched (ctx.rewind before.checkpoint)

theorem untouched_self (ctx : Context τ) : ctx.Untouched ctx :=
  ⟨rfl, rfl⟩

theorem Untouched.storeRef (untouched : entry.Untouched ctx) (name : String) (range : Range) :
    Yields entry.Untouched (ctx.storeRef name range) := by
  obtain ⟨refs, forest, log⟩ := ctx
  cases refs with
  | none => exact .error _
  | some refs => exact .ok untouched

theorem Tracks.settled {refs : List Backref} {trees : List (MarkedTree τ)} {builds : Bool}
    (tracks : entry.Tracks refs trees builds) : entry.Settled := by
  intro ⟨refs', forest, log⟩ ⟨refs'', forest', log'⟩ ⟨same, _⟩ ⟨same', sameLog⟩
  simp only at same same' sameLog
  subst same same' sameLog
  cases tracks with
  | tree represents sound =>
      have kept := represents.recycleTo_last
      simp only [checkpoint, Context.watermark, Option.bind_some, Context.rewind, kept,
        Fault.ok_bind, Nat.lt_irrefl, if_false]
      exact .ok ⟨rfl, rfl⟩
  | text sound => exact .ok ⟨rfl, rfl⟩

end Context

namespace Action

variable {α τ : Type} {entry : Context τ} {action first second last item separator closing : Action τ}

/-- From a context on which nothing has been built since, the action leads to one. -/
def Spares (entry : Context τ) (action : Action τ) : Prop :=
  ∀ ctx cursor, entry.Untouched ctx →
    Yields (fun answer => entry.Untouched answer.2) (action ctx cursor)

theorem spares_succeed : Spares entry succeed :=
  fun _ _ untouched => .ok untouched

theorem spares_stop (fault : Fault) : Spares entry (stop fault) :=
  fun _ _ _ => .error fault

theorem Spares.andThen (spares : first.Spares entry) (spares' : second.Spares entry) :
    (first.andThen second).Spares entry := by
  intro ctx cursor untouched
  refine .bind (spares ctx cursor untouched) ?_
  intro ⟨verdict, ctx'⟩ untouched'
  cases verdict with
  | matched next => exact spares' ctx' next untouched'
  | failed offset => exact .ok untouched'

theorem Spares.sequence {actions : List (Action τ)}
    (spares : ∀ action ∈ actions, Spares entry action) :
    (Action.sequence actions).Spares entry := by
  induction actions with
  | nil => exact spares_succeed
  | cons action rest ih =>
      rw [List.forall_mem_cons] at spares
      exact spares.1.andThen (ih spares.2)

theorem Spares.store (spares : action.Spares entry) (name : String) :
    (action.store name).Spares entry := by
  intro ctx cursor untouched
  refine .bind (spares ctx cursor untouched) ?_
  intro ⟨verdict, ctx'⟩ untouched'
  cases verdict with
  | matched next =>
      refine .bind (untouched'.storeRef name _) ?_
      intro ctx'' untouched''
      exact .ok untouched''
  | failed offset => exact .ok untouched'

theorem Spares.thenIfMoved (spares : first.Spares entry) (spares' : second.Spares entry) :
    (first.thenIfMoved second).Spares entry := by
  intro ctx cursor untouched
  refine .bind (spares ctx cursor untouched) ?_
  intro ⟨verdict, ctx'⟩ untouched'
  cases verdict with
  | matched next =>
      dsimp only
      split
      · exact .ok untouched'
      · exact spares' ctx' next untouched'
  | failed offset => exact .ok untouched'

theorem Spares.times (spares : action.Spares entry) (count : Nat) :
    (action.times count).Spares entry := by
  induction count with
  | zero => exact spares_succeed
  | succ count ih => exact spares.andThen ih

theorem Spares.atLeast (spares : action.Spares entry) (spares' : last.Spares entry) (count : Nat) :
    (action.atLeast last count).Spares entry := by
  induction count with
  | zero => exact spares'
  | succ count ih => exact spares.thenIfMoved ih

section Settled

variable (settled : entry.Settled)
include settled

theorem Spares.attempt (spares : action.Spares entry) : action.attempt.Spares entry := by
  intro ctx cursor untouched
  refine .bind (spares ctx cursor untouched) ?_
  intro ⟨verdict, ctx'⟩ untouched'
  cases verdict with
  | matched next => exact .ok untouched'
  | failed offset =>
      refine .bind (settled ctx ctx' untouched untouched') ?_
      intro ctx'' untouched''
      exact .ok untouched''

theorem Spares.probe (spares : action.Spares entry) : action.probe.Spares entry := by
  intro ctx cursor untouched
  refine .bind (spares ctx cursor untouched) ?_
  intro ⟨verdict, ctx'⟩ untouched'
  refine .bind (settled ctx ctx' untouched untouched') ?_
  intro ctx'' untouched''
  exact .ok untouched''

theorem Spares.sequenceOpt {actions : List (Action τ)}
    (spares : ∀ action ∈ actions, Spares entry action) :
    (Action.sequenceOpt actions).Spares entry := by
  induction actions with
  | nil => exact spares_succeed
  | cons action rest ih =>
      rw [List.forall_mem_cons] at spares
      intro ctx cursor untouched
      refine .bind (spares.1.attempt settled ctx cursor untouched) ?_
      intro ⟨verdict, ctx'⟩ untouched'
      cases verdict with
      | matched next => exact ih spares.2 ctx' next untouched'
      | failed offset => exact .ok untouched'

theorem Spares.choice {actions : List (Action τ)} (spares : ∀ action ∈ actions, Spares entry action) :
    (Action.choice actions).Spares entry := by
  have tried : ∀ offset, (Action.firstOf offset actions).Spares entry := by
    induction actions with
    | nil => exact fun _ _ _ untouched => .ok untouched
    | cons action rest ih =>
        rw [List.forall_mem_cons] at spares
        intro offset ctx cursor untouched
        refine .bind (spares.1.attempt settled ctx cursor untouched) ?_
        intro ⟨verdict, ctx'⟩ untouched'
        cases verdict with
        | matched next => exact .ok untouched'
        | failed furthest => exact ih spares.2 _ ctx' cursor untouched'
  intro ctx cursor untouched
  exact tried cursor ctx cursor untouched

theorem Spares.nonEmpty (spares : action.Spares entry) : action.nonEmpty.Spares entry := by
  intro ctx cursor untouched
  refine .bind (spares ctx cursor untouched) ?_
  intro ⟨verdict, ctx'⟩ untouched'
  cases verdict with
  | matched next =>
      dsimp only
      split
      · refine .bind (settled ctx ctx' untouched untouched') ?_
        intro ctx'' untouched''
        exact .ok untouched''
      · exact .ok untouched'
  | failed offset => exact .ok untouched'

theorem Spares.optional (spares : action.Spares entry) : action.optional.Spares entry := by
  intro ctx cursor untouched
  refine .bind (spares.attempt settled ctx cursor untouched) ?_
  intro ⟨verdict, ctx'⟩ untouched'
  cases verdict with
  | matched next => exact .ok untouched'
  | failed offset => exact .ok untouched'

theorem Spares.lookAhead (spares : action.Spares entry) : action.ahead.Spares entry := by
  intro ctx cursor untouched
  refine .bind (spares.probe settled ctx cursor untouched) ?_
  intro ⟨verdict, ctx'⟩ untouched'
  cases verdict with
  | matched next => exact .ok untouched'
  | failed offset => exact .ok untouched'

theorem Spares.notAhead (spares : action.Spares entry) : action.notAhead.Spares entry := by
  intro ctx cursor untouched
  refine .bind (spares.probe settled ctx cursor untouched) ?_
  intro ⟨verdict, ctx'⟩ untouched'
  cases verdict with
  | matched next => exact .ok untouched'
  | failed offset => exact .ok untouched'

/-! ## Loops -/

theorem Spares.greedy (spares : action.Spares entry) (spares' : last.Spares entry) (rounds : Nat) :
    (action.greedy last rounds).Spares entry := by
  induction rounds with
  | zero => exact spares'
  | succ rounds ih =>
      intro ctx cursor untouched
      refine .bind (spares.attempt settled ctx cursor untouched) ?_
      intro ⟨verdict, ctx'⟩ untouched'
      cases verdict with
      | matched next =>
          dsimp only
          split
          · exact .ok untouched'
          · exact ih ctx' next untouched'
      | failed offset => exact .ok untouched'

theorem Spares.repeated (spares : action.Spares entry) (window : Window α) :
    Spares entry fun ctx cursor =>
      action.greedy (.stop .exhausted) (window.left cursor + 1) ctx cursor := by
  intro ctx cursor untouched
  exact spares.greedy settled (spares_stop _) _ ctx cursor untouched

theorem Spares.upTo (spares : action.Spares entry) (left : Nat) :
    (action.upTo left).Spares entry := by
  induction left with
  | zero =>
      intro ctx cursor untouched
      refine .bind (spares.probe settled ctx cursor untouched) ?_
      intro ⟨verdict, ctx'⟩ untouched'
      cases verdict with
      | matched next => exact .ok untouched'
      | failed offset => exact .ok untouched'
  | succ left ih =>
      intro ctx cursor untouched
      refine .bind (spares.probe settled ctx cursor untouched) ?_
      intro ⟨verdict, ctx'⟩ untouched'
      cases verdict with
      | matched next => exact .ok untouched'
      | failed offset => exact ih ctx' (cursor + 1) untouched'

theorem Spares.closeOr (spares : closing.Spares entry) (spares' : first.Spares entry)
    (spares'' : second.Spares entry) : (closing.closeOr first second).Spares entry := by
  intro ctx cursor untouched
  refine .bind (spares.attempt settled ctx cursor untouched) ?_
  intro ⟨verdict, ctx'⟩ untouched'
  cases verdict with
  | matched next => exact .ok untouched'
  | failed unclosed =>
      refine .bind (spares' ctx' cursor untouched') ?_
      intro ⟨verdict', ctx''⟩ untouched''
      cases verdict' with
      | matched next => exact spares'' ctx'' next untouched''
      | failed offset => exact .ok untouched''

theorem Spares.blockRounds (spares : item.Spares entry) (spares' : closing.Spares entry)
    (rounds : Nat) : (item.blockRounds closing rounds).Spares entry := by
  induction rounds with
  | zero => exact spares_stop _
  | succ rounds ih =>
      intro ctx cursor untouched
      refine spares'.closeOr settled spares ?_ ctx cursor untouched
      intro ctx next untouched
      dsimp only
      split
      · exact .ok untouched
      · exact ih ctx next untouched

theorem Spares.listRounds (spares : item.Spares entry) (spares' : separator.Spares entry)
    (spares'' : closing.Spares entry) (rounds : Nat) :
    (item.listRounds separator closing rounds).Spares entry := by
  induction rounds with
  | zero => exact spares_stop _
  | succ rounds ih =>
      intro ctx cursor untouched
      refine spares''.closeOr settled spares ?_ ctx cursor untouched
      intro ctx afterItem untouched
      refine spares''.closeOr settled spares' ?_ ctx afterItem untouched
      intro ctx next untouched
      dsimp only
      split
      · exact .ok untouched
      · exact ih ctx next untouched

end Settled

/-! ## Atoms -/

section Atoms

variable {window : Window α}

theorem spares_one (test : α → Except Fault Bool) : Spares entry (one window test) := by
  intro ctx cursor untouched
  unfold one
  split
  · exact .ok untouched
  · exact .bind_any fun _ => .ok untouched

theorem spares_literal (order : Comparator α) (atoms : List α) :
    Spares entry (literal order window atoms) := by
  induction atoms with
  | nil => exact spares_succeed
  | cons expected rest ih =>
      intro ctx cursor untouched
      unfold literal
      split
      · exact .ok untouched
      · split
        · exact ih ctx (cursor + 1) untouched
        · exact .ok untouched

theorem spares_endOfInput : Spares entry (endOfInput window) :=
  fun _ _ untouched => .ok untouched

theorem spares_backref (order : Comparator α) (name : String) :
    Spares entry (backref order window name) := by
  intro ctx cursor untouched
  refine .bind_any fun range => .bind_any fun atoms => ?_
  exact spares_literal order atoms.toList ctx cursor untouched

theorem spares_skip (count : Nat) : Spares entry (skip window count) := by
  intro ctx cursor untouched
  unfold skip
  split
  · exact .ok untouched
  · exact .error _

theorem spares_failAt (offset : Nat) : Spares entry (failAt window offset) := by
  intro ctx cursor untouched
  unfold failAt
  split
  · exact .ok untouched
  · exact .error _

end Atoms

end Action

/-! ## Matchers -/

section Matchers

variable {α τ ρ : Type} [Atom α] {order : Comparator α} {window : Window α} {entry : Context τ}

def Matcher.Plain (calls : ρ → Prop) : Matcher α τ ρ → Prop
  | .node _ _ _ | .promote _ => False
  | .rule name => calls name
  | _ => True

omit [Atom α] in
theorem Matcher.plain_of_isBuilding {calls : ρ → Prop} {matcher : Matcher α τ ρ}
    (plain : matcher.isBuilding = false) (called : ∀ name, matcher = .rule name → calls name) :
    matcher.Plain calls := by
  cases matcher with
  | rule name => exact called name rfl
  | node _ _ _ => cases plain
  | promote _ => cases plain
  | _ => trivial

mutual

theorem Matcher.eval_spares (settled : entry.Settled) {call : ρ → Action τ} :
    ∀ matcher : Matcher α τ ρ, matcher.Every (Plain fun name => (call name).Spares entry) →
      (matcher.eval order window call).Spares entry
  | .one kind, _ => Action.spares_one (kind.test order)
  | .literal atoms, _ => Action.spares_literal order atoms
  | .endOfInput, _ => Action.spares_endOfInput
  | .seq steps, every => .sequence (evalAll_spares settled steps every.parts)
  | .seqOpt steps, every => .sequenceOpt settled (evalAll_spares settled steps every.parts)
  | .choice alternatives, every =>
      .choice settled (evalAll_spares settled alternatives every.parts)
  | .nonEmpty inner, every => (eval_spares settled inner (every.inner rfl)).nonEmpty settled
  | .star inner, every => (eval_spares settled inner (every.inner rfl)).repeated settled window
  | .plus inner, every =>
      (eval_spares settled inner (every.inner rfl)).thenIfMoved
        ((eval_spares settled inner (every.inner rfl)).repeated settled window)
  | .opt inner, every => (eval_spares settled inner (every.inner rfl)).optional settled
  | .times count inner, every => (eval_spares settled inner (every.inner rfl)).times count
  | .timesBetween least most inner, every =>
      (eval_spares settled inner (every.inner rfl)).atLeast
        ((eval_spares settled inner (every.inner rfl)).greedy settled Action.spares_succeed
          (most - least)) least
  | .ahead inner, every => (eval_spares settled inner (every.inner rfl)).lookAhead settled
  | .notAhead inner, every => (eval_spares settled inner (every.inner rfl)).notAhead settled
  | .upTo inner, every => fun ctx cursor untouched =>
      (eval_spares settled inner (every.inner rfl)).upTo settled (window.left cursor) ctx cursor
        untouched
  | .block opening item closing, every =>
      (eval_spares settled opening (every.parts _ (by simp [parts]))).andThen
        fun ctx cursor untouched =>
          (eval_spares settled item (every.parts _ (by simp [parts]))).blockRounds settled
            (eval_spares settled closing (every.parts _ (by simp [parts])))
            (window.left cursor + 1) ctx cursor untouched
  | .list opening item separator closing, every =>
      (eval_spares settled opening (every.parts _ (by simp [parts]))).andThen
        fun ctx cursor untouched =>
          (eval_spares settled item (every.parts _ (by simp [parts]))).listRounds settled
            (eval_spares settled separator (every.parts _ (by simp [parts])))
            (eval_spares settled closing (every.parts _ (by simp [parts])))
            (window.left cursor + 1) ctx cursor untouched
  | .store name inner, every => (eval_spares settled inner (every.inner rfl)).store name
  | .backref name, _ => Action.spares_backref order name
  | .node _ _ _, every => every.here.elim
  | .promote _, every => every.here.elim
  | .rule _, every => every.here
  | .skip count, _ => Action.spares_skip count
  | .failAt offset, _ => Action.spares_failAt offset

theorem Matcher.evalAll_spares (settled : entry.Settled) {call : ρ → Action τ} :
    ∀ matchers : List (Matcher α τ ρ),
      (∀ matcher ∈ matchers, matcher.Every (Plain fun name => (call name).Spares entry)) →
      ∀ action ∈ evalAll order window call matchers, action.Spares entry
  | [], _ => nofun
  | matcher :: rest, every => List.forall_mem_cons.mpr
      ⟨eval_spares settled matcher (every matcher List.mem_cons_self),
        evalAll_spares settled rest fun other member =>
          every other (List.mem_cons_of_mem matcher member)⟩

end

theorem Grammar.run_spares (settled : entry.Settled) {grammar : Grammar α τ ρ} (depth : Nat) :
    ∀ matcher : Matcher α τ ρ,
      (∀ inner, grammar.Uses matcher inner → inner.isBuilding = false) →
      (grammar.run order depth window matcher).Spares entry := by
  induction depth with
  | zero =>
      intro matcher plain
      apply Matcher.eval_spares settled matcher
      intro part partOf
      apply Matcher.plain_of_isBuilding (plain part (.of_partOf partOf (.self part)))
      intro name _
      exact Action.spares_stop .exhausted
  | succ depth ih =>
      intro matcher plain
      apply Matcher.eval_spares settled matcher
      intro part partOf
      apply Matcher.plain_of_isBuilding (plain part (.of_partOf partOf (.self part)))
      -- What a rule uses is used by whoever calls it, so its parts are plain as well.
      intro name same
      subst same
      apply ih (grammar name)
      intro inner deeper
      exact plain inner (.of_partOf partOf (.rule deeper))

end Matchers

theorem Session.Match.run_spares {α τ : Type} [Atom α] {attempt : Match α τ} {span : Span α}
    {builds : Bool} {ctx ctx' : Context τ} {refs : List Backref} {trees : List (MarkedTree τ)}
    (tracks : ctx.Tracks refs trees builds) (ran : attempt.run ctx = .ok (span, ctx'))
    (plain : ∀ inner, attempt.grammar.Uses attempt.matcher inner → inner.isBuilding = false) :
    ctx.Untouched ctx' := by
  obtain ⟨-, verdict, acted, -⟩ := Match.run_eq_ok.mp ran
  exact Grammar.run_spares tracks.settled attempt.depth attempt.matcher plain ctx attempt.cursor
    ctx.untouched_self _ acted

end PegForest
