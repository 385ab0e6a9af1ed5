import PegForest.Matcher.Eval
import PegForest.Parser.Basic
import PegForest.Proofs.Forest.Tally

/-!
# Spans and cursors

A matcher that is run on a valid span inside its input does what its action does at the cursor: the
span that comes back points into the same input, and either it has the same limit and the cursor is
where the action has matched, or it has failed where the action has failed.  Along with it goes that
a cursor never moves back, nor beyond the limit, which is why no span is ever asked for more than it
has.  And no matcher is ever run on any other span: whatever would be done there makes no difference.

A choice takes one checkpoint for all its alternatives where the action takes one for each of them.
These are the same, since a match only adds to a context.
-/

set_option autoImplicit false

namespace PegForest

/-! ## What a match adds to -/

namespace Forest

variable {τ : Type}

theorem tail_update {forest : Forest τ} (id : NodeId) (change : Node τ → Node τ) :
    Yields (fun forest' => forest'.tail = forest.tail) (forest.update id change) := by
  obtain ⟨arena, head, tail, created, recycled⟩ := forest
  exact .bind_any fun _ => .ok rfl

theorem tail_linkAfter {forest : Forest τ} (watermark next : Option NodeId) :
    Yields (fun forest' => forest'.tail = forest.tail) (forest.linkAfter watermark next) := by
  cases watermark with
  | none => exact .ok rfl
  | some mark => exact tail_update mark _

theorem tail_dropRoots (watermark : Option NodeId) (steps : Nat) (forest : Forest τ) :
    Yields (fun forest' => forest'.tail = watermark) (dropRoots watermark steps forest) := by
  fun_induction dropRoots watermark steps forest with
  | case1 _ _ met => exact .ok met
  | case2 _ _ _ first last => exact .ok (last.trans first.symm)
  | case3 => exact .error _
  | case4 => exact .error _
  | case5 _ _ _ _ _ ih => exact .bind_any fun _ => .bind_any fun forest => ih forest

theorem tail_recycleTo (watermark : Option NodeId) (forest : Forest τ) :
    Yields (fun forest' => forest'.tail = watermark) (forest.recycleTo watermark) := by
  unfold recycleTo
  refine .bind (tail_dropRoots watermark _ forest) fun dropped last => ?_
  refine .bind (tail_linkAfter watermark none) fun linked same => .ok ?_
  exact same.trans last

end Forest

namespace Context

variable {τ : Type}

structure Grows (ctx ctx' : Context τ) : Prop where
  mark : ctx.checkpoint.mark ≤ ctx'.checkpoint.mark
  builds : ctx'.forest.isSome = ctx.forest.isSome

variable {ctx ctx' ctx'' : Context τ}

theorem Grows.refl (ctx : Context τ) : ctx.Grows ctx :=
  ⟨Nat.le_refl _, rfl⟩

theorem Grows.trans (grows : ctx.Grows ctx') (grows' : ctx'.Grows ctx'') : ctx.Grows ctx'' :=
  ⟨Nat.le_trans grows.mark grows'.mark, grows'.builds.trans grows.builds⟩

/-- Going back to where a context was makes the checkpoint what it was. -/
theorem Grows.rewind (grows : ctx.Grows ctx') :
    Yields (fun ctx'' => ctx''.checkpoint = ctx.checkpoint ∧ ctx.Grows ctx'')
      (ctx'.rewind ctx.checkpoint) := by
  obtain ⟨refs, forest, log⟩ := ctx
  obtain ⟨refs', forest', log'⟩ := ctx'
  obtain ⟨mark, builds⟩ := grows
  simp only [checkpoint] at mark
  have marked : ((refs'.map (·.restore ((refs.map Backrefs.mark).getD 0))).map Backrefs.mark).getD 0 =
      (refs.map Backrefs.mark).getD 0 := by
    cases refs' with
    | none => exact (Nat.le_zero.mp mark).symm
    | some refs' =>
        simp only [Option.map_some, Option.getD_some, Backrefs.mark, Backrefs.restore, Array.size_shrink]
        exact Nat.min_eq_left mark
  cases forest' with
  | none =>
      cases forest with
      | some forest => simp at builds
      | none =>
          refine .ok ⟨?_, Nat.le_of_eq ?_, rfl⟩
          · simp only [checkpoint, marked, watermark, Option.bind_none]
          · simp only [checkpoint, marked]
  | some forest' =>
      refine .bind (Forest.tail_recycleTo _ forest') fun forest'' last => .ok ⟨?_, Nat.le_of_eq ?_, ?_⟩
      · simp only [checkpoint, marked]
        exact congrArg (Checkpoint.mk · _) last
      · simp only [checkpoint, marked]
      · simpa using builds

theorem grows_storeRef (name : String) (range : Range) :
    Yields ctx.Grows (ctx.storeRef name range) := by
  obtain ⟨refs, forest, log⟩ := ctx
  cases refs with
  | none => exact .error _
  | some refs => exact .ok ⟨by simp [checkpoint, Backrefs.mark, Backrefs.store], rfl⟩

theorem grows_close (watermark : Option NodeId) (tag : Option τ) (start stop : Nat)
    (bookmark : Bool) : Yields ctx.Grows (ctx.close watermark tag start stop bookmark) := by
  obtain ⟨refs, forest, log⟩ := ctx
  cases forest with
  | none => exact .ok ⟨Nat.le_refl _, rfl⟩
  | some forest => exact .bind_any fun forest' => .ok ⟨Nat.le_refl _, rfl⟩

theorem grows_promote (watermark : Option NodeId) (start stop : Nat) :
    Yields ctx.Grows (ctx.promote watermark start stop) := by
  obtain ⟨refs, forest, log⟩ := ctx
  cases forest with
  | none => exact .ok ⟨Nat.le_refl _, rfl⟩
  | some forest => exact .bind_any fun found => .ok ⟨Nat.le_refl _, rfl⟩

end Context

/-! ## Places of a window -/

theorem Span.furthest_failed {α : Type} (source : Array α) (offset offset' : Nat) :
    (Span.failed source offset).furthest (.failed source offset') =
      .failed source (max offset offset') := by
  by_cases later : offset < offset'
  · rw [Nat.max_eq_right (Nat.le_of_lt later)]
    exact if_pos later
  · rw [Nat.max_eq_left (Nat.le_of_not_lt later)]
    exact if_neg later

namespace Window

variable {α τ : Type} {window : Window α} {cursor next : Nat}

def spanAt (window : Window α) (cursor : Nat) : Span α :=
  .valid window.source cursor window.limit

theorem fail_spanAt (within : cursor ≤ window.source.size) :
    (window.spanAt cursor).fail = .ok (.failed window.source cursor) :=
  if_pos within

theorem advance_spanAt (count : Nat) :
    (window.spanAt cursor).advance count =
      if count ≤ window.left cursor then .ok (window.spanAt (cursor + count))
      else .error (.advancePastLimit count window.limit cursor) := rfl

theorem advance_one (before : cursor < window.limit) :
    (window.spanAt cursor).advance 1 = .ok (window.spanAt (cursor + 1)) :=
  if_pos (show 1 ≤ window.left cursor from Nat.sub_pos_of_lt before)

theorem failAt_spanAt (offset : Nat) :
    (window.spanAt cursor).failAt offset =
      if offset ≤ window.source.size then .ok (.failed window.source offset)
      else .error (.failureOutside offset window.source.size) := rfl

theorem peek?_spanAt : (window.spanAt cursor).peek? = window.peek? cursor := rfl

theorem cursor?_spanAt : (window.spanAt cursor).cursor? = some cursor := rfl

theorem isValid_spanAt : (window.spanAt cursor).isValid = true := rfl

theorem isEmpty_spanAt : (window.spanAt cursor).isEmpty = (cursor == window.limit) := rfl

theorem lt_of_peek? {a : α} (found : window.peek? cursor = some a) : cursor < window.limit := by
  unfold peek? at found
  split at found
  · assumption
  · cases found

theorem peek?_isSome (inside : window.limit ≤ window.source.size) (before : cursor < window.limit) :
    ∃ a, window.peek? cursor = some a := by
  rw [peek?, if_pos before]
  exact ⟨_, Array.getElem?_eq_getElem (Nat.lt_of_lt_of_le before inside)⟩

/-- A span and a verdict that say the same, reached from a context and a cursor. -/
inductive Tells (window : Window α) (ctx : Context τ) (cursor : Nat) :
    Span α × Context τ → Verdict × Context τ → Prop where
  | matched {next : Nat} {ctx' : Context τ} (forward : cursor ≤ next)
      (bounded : next ≤ window.limit) (grows : ctx.Grows ctx') :
      Tells window ctx cursor (window.spanAt next, ctx') (.matched next, ctx')
  | failed {offset : Nat} {ctx' : Context τ} (grows : ctx.Grows ctx') :
      Tells window ctx cursor (.failed window.source offset, ctx') (.failed offset, ctx')

theorem Tells.later {ctx ctx' : Context τ} {answer : Span α × Context τ}
    {answer' : Verdict × Context τ} (tells : window.Tells ctx' next answer answer')
    (forward : cursor ≤ next) (grows : ctx.Grows ctx') : window.Tells ctx cursor answer answer' := by
  cases tells with
  | matched forward' bounded grows' =>
      exact .matched (Nat.le_trans forward forward') bounded (grows.trans grows')
  | failed grows' => exact .failed (grows.trans grows')

end Window

/-- On the valid spans of a window from a place on, the first does what the second does at the
cursor. -/
def SpanAction.Mirrors {α τ : Type} (window : Window α) (low : Nat) (action : SpanAction α τ)
    (other : Action τ) : Prop :=
  ∀ ctx cursor, low ≤ cursor → cursor ≤ window.limit →
    Agree (window.Tells ctx cursor) (action ctx (window.spanAt cursor)) (other ctx cursor)

namespace SpanAction

open Window

variable {α τ : Type} {window : Window α} {low : Nat}
  {first second last item separator closing action : SpanAction α τ}
  {first' second' last' item' separator' closing' action' : Action τ}

theorem mirrors_succeed : Mirrors window low (succeed : SpanAction α τ) .succeed := by
  intro ctx cursor above within
  exact .ok (.matched (Nat.le_refl cursor) within (.refl ctx))

theorem mirrors_stop (fault : Fault) : Mirrors window low (stop fault : SpanAction α τ) (.stop fault) :=
  fun _ _ _ _ => .error fault

/-- An action that is run where another one has ended. -/
theorem Mirrors.further {ctx ctx' : Context τ} {cursor next : Nat}
    (mirrors : Mirrors window low action action') (above : low ≤ cursor) (forward : cursor ≤ next)
    (bounded : next ≤ window.limit) (grows : ctx.Grows ctx') :
    Agree (window.Tells ctx cursor) (action ctx' (window.spanAt next)) (action' ctx' next) := by
  apply (mirrors ctx' next (Nat.le_trans above forward) bounded).mono
  intro _ _ tells
  exact tells.later forward grows

theorem Mirrors.andThen (mirrors : Mirrors window low first first')
    (mirrors' : Mirrors window low second second') :
    Mirrors window low (first.andThen second) (first'.andThen second') := by
  intro ctx cursor above within
  apply (mirrors ctx cursor above within).bind
  intro _ _ _ tells
  cases tells with
  | matched forward bounded grows => exact mirrors'.further above forward bounded grows
  | failed grows => exact .ok (.failed grows)

theorem Mirrors.sequence {actions : List (SpanAction α τ)} {actions' : List (Action τ)}
    (each : List.Forall₂ (Mirrors window low) actions actions') :
    Mirrors window low (sequence actions) (.sequence actions') := by
  induction each with
  | nil => exact mirrors_succeed
  | cons here _ ih => exact here.andThen ih

theorem Mirrors.times (mirrors : Mirrors window low action action') (count : Nat) :
    Mirrors window low (action.times count) (action'.times count) := by
  induction count with
  | zero => exact mirrors_succeed
  | succ count ih => exact mirrors.andThen ih

theorem Mirrors.attempt (mirrors : Mirrors window low action action') :
    Mirrors window low action.attempt action'.attempt := by
  intro ctx cursor above within
  apply (mirrors ctx cursor above within).bind
  intro _ _ _ tells
  cases tells with
  | matched forward bounded grows => exact .ok (.matched forward bounded grows)
  | failed grows =>
      apply Agree.bind_same grows.rewind
      intro after ⟨_, grows'⟩
      exact .ok (.failed grows')

theorem Mirrors.probe (mirrors : Mirrors window low action action') :
    Mirrors window low action.probe action'.probe := by
  intro ctx cursor above within
  apply (mirrors ctx cursor above within).bind
  intro _ _ _ tells
  cases tells with
  | matched forward bounded grows =>
      apply Agree.bind_same grows.rewind
      intro after ⟨_, grows'⟩
      exact .ok (.matched forward bounded grows')
  | failed grows =>
      apply Agree.bind_same grows.rewind
      intro after ⟨_, grows'⟩
      exact .ok (.failed grows')

theorem Mirrors.sequenceOpt {actions : List (SpanAction α τ)} {actions' : List (Action τ)}
    (each : List.Forall₂ (Mirrors window low) actions actions') :
    Mirrors window low (sequenceOpt actions) (.sequenceOpt actions') := by
  induction each with
  | nil => exact mirrors_succeed
  | cons here _ ih =>
      intro ctx cursor above within
      apply (here.attempt ctx cursor above within).bind
      intro _ _ _ tells
      cases tells with
      | matched forward bounded grows => exact ih.further above forward bounded grows
      | failed grows => exact .ok (.matched (Nat.le_refl cursor) within grows)

theorem Mirrors.optional (mirrors : Mirrors window low action action') :
    Mirrors window low action.optional action'.optional := by
  intro ctx cursor above within
  apply (mirrors.attempt ctx cursor above within).bind
  intro _ _ _ tells
  cases tells with
  | matched forward bounded grows => exact .ok (.matched forward bounded grows)
  | failed grows => exact .ok (.matched (Nat.le_refl cursor) within grows)

theorem Mirrors.ahead (mirrors : Mirrors window low action action') :
    Mirrors window low action.ahead action'.ahead := by
  intro ctx cursor above within
  apply (mirrors.probe ctx cursor above within).bind
  intro _ _ _ tells
  cases tells with
  | matched _ _ grows => exact .ok (.matched (Nat.le_refl cursor) within grows)
  | failed grows => exact .ok (.failed grows)

theorem Mirrors.greedy (mirrors : Mirrors window low action action')
    (mirrors' : Mirrors window low last last') (rounds : Nat) :
    Mirrors window low (action.greedy last rounds) (action'.greedy last' rounds) := by
  induction rounds with
  | zero => exact mirrors'
  | succ rounds ih =>
      intro ctx cursor above within
      apply (mirrors.attempt ctx cursor above within).bind
      intro _ _ _ tells
      cases tells with
      | @matched next ctx' forward bounded grows =>
          simp only [isValid_spanAt, cursor?_spanAt, Option.some.injEq, if_true]
          by_cases idle : next = cursor
          · rw [if_pos idle, if_pos idle]
            exact .ok (.matched forward bounded grows)
          · rw [if_neg idle, if_neg idle]
            exact ih.further above forward bounded grows
      | failed grows => exact .ok (.matched (Nat.le_refl cursor) within grows)

theorem Mirrors.star (mirrors : Mirrors window low action action') :
    Mirrors window low action.star fun ctx cursor =>
      action'.greedy (.stop .exhausted) (window.left cursor + 1) ctx cursor :=
  fun ctx cursor => mirrors.greedy (mirrors_stop _) _ ctx cursor

theorem Mirrors.thenIfMoved (mirrors : Mirrors window low first first')
    (mirrors' : Mirrors window low second second') :
    Mirrors window low (first.thenIfMoved second) (first'.thenIfMoved second') := by
  intro ctx cursor above within
  apply (mirrors ctx cursor above within).bind
  intro _ _ _ tells
  cases tells with
  | @matched next ctx' forward bounded grows =>
      simp only [isValid_spanAt, cursor?_spanAt, Option.some.injEq, true_and, ne_eq]
      by_cases idle : next = cursor
      · rw [if_neg (not_not_intro idle), if_pos idle]
        exact .ok (.matched forward bounded grows)
      · rw [if_pos idle, if_neg idle]
        exact mirrors'.further above forward bounded grows
  | failed grows => exact .ok (.failed grows)

theorem Mirrors.atLeast (mirrors : Mirrors window low action action')
    (mirrors' : Mirrors window low last last') (count : Nat) :
    Mirrors window low (action.atLeast last count) (action'.atLeast last' count) := by
  induction count with
  | zero => exact mirrors'
  | succ count ih => exact mirrors.thenIfMoved ih

theorem Mirrors.closeOr {after : SpanAction α τ} {after' : Action τ}
    (closes : Mirrors window low closing closing') (mirrors : Mirrors window low action action')
    (goesOn : Mirrors window low after after') :
    Mirrors window low (closing.closeOr action after) (closing'.closeOr action' after') := by
  intro ctx cursor above within
  apply (closes.attempt ctx cursor above within).bind
  intro _ _ _ tells
  cases tells with
  | matched forward bounded grows => exact .ok (.matched forward bounded grows)
  | @failed unclosed ctx₁ grows =>
      apply (mirrors ctx₁ cursor above within).bind
      intro _ _ _ tells
      cases tells with
      | matched forward bounded grows' =>
          exact goesOn.further above forward bounded (grows.trans grows')
      | @failed offset ctx₂ grows' =>
          simp only [Span.furthest_failed]
          exact .ok (.failed (grows.trans grows'))

theorem Mirrors.firstOf {entry : Checkpoint} {actions : List (SpanAction α τ)}
    {actions' : List (Action τ)} (each : List.Forall₂ (Mirrors window low) actions actions') :
    ∀ offset ctx cursor, low ≤ cursor → cursor ≤ window.limit → ctx.checkpoint = entry →
      Agree (window.Tells ctx cursor)
        (SpanAction.firstOf entry actions (.failed window.source offset) ctx (window.spanAt cursor))
        (Action.firstOf offset actions' ctx cursor) := by
  induction each with
  | nil => exact fun offset ctx cursor _ _ _ => .ok (.failed (.refl ctx))
  | cons here _ ih =>
      intro offset ctx cursor above within entered
      simp only [SpanAction.firstOf, Action.firstOf, Action.attempt, bind_assoc]
      apply (here ctx cursor above within).bind
      intro _ _ _ tells
      cases tells with
      | matched forward bounded grows => exact .ok (.matched forward bounded grows)
      | @failed furthest ctx' grows =>
          -- Going back makes the one checkpoint of the choice that of the next alternative.
          subst entered
          simp only [bind_assoc]
          apply Agree.bind_same grows.rewind
          intro after ⟨back, grows'⟩
          rw [Span.furthest_failed]
          apply (ih (max offset furthest) after cursor above within back).mono
          intro _ _ tells
          exact tells.later (Nat.le_refl cursor) grows'

theorem Mirrors.store (mirrors : Mirrors window low action action') (name : String) :
    Mirrors window low (action.store name) (action'.store name) := by
  intro ctx cursor above within
  apply (mirrors ctx cursor above within).bind
  intro _ _ _ tells
  cases tells with
  | matched forward bounded grows =>
      apply Agree.bind_same (Context.grows_storeRef name _)
      intro after grows'
      exact .ok (.matched forward bounded (grows.trans grows'))
  | failed grows => exact .ok (.failed grows)

theorem Mirrors.building
    {change : Context τ → Option NodeId → Nat → Nat → Except Fault (Context τ)}
    (keeping : ∀ ctx watermark start stop, Yields ctx.Grows (change ctx watermark start stop))
    (mirrors : Mirrors window low action action') :
    Mirrors window low (action.building change) (action'.building change) := by
  intro ctx cursor above within
  simp only [SpanAction.building, Action.building, Action.attempt, bind_assoc]
  apply (mirrors ctx cursor above within).bind
  intro _ _ _ tells
  cases tells with
  | matched forward bounded grows =>
      apply Agree.bind_same (keeping _ _ _ _)
      intro after grows'
      exact .ok (.matched forward bounded (grows.trans grows'))
  | failed grows =>
      simp only [bind_assoc]
      apply Agree.bind_same grows.rewind
      intro after ⟨_, grows'⟩
      exact .ok (.failed grows')

theorem Mirrors.node (mirrors : Mirrors window low action action') (tag : Option τ)
    (bookmark : Bool) : Mirrors window low (action.node tag bookmark) (action'.node tag bookmark) :=
  mirrors.building fun _ watermark start stop =>
    Context.grows_close watermark tag start stop bookmark

theorem Mirrors.promote (mirrors : Mirrors window low action action') :
    Mirrors window low action.promote action'.promote :=
  mirrors.building fun _ watermark start stop => Context.grows_promote watermark start stop

section Inside

variable (inside : window.limit ≤ window.source.size)
include inside

theorem agree_fail {ctx ctx' : Context τ} {start cursor : Nat} (within : cursor ≤ window.limit)
    (grows : ctx.Grows ctx') :
    Agree (window.Tells ctx start) (fail ctx' (window.spanAt cursor))
      (.ok (.failed cursor, ctx')) := by
  unfold fail
  rw [fail_spanAt (Nat.le_trans within inside)]
  exact .ok (.failed grows)

theorem mirrors_one (test : α → Except Fault Bool) :
    Mirrors window low (one test : SpanAction α τ) (.one window test) := by
  intro ctx cursor above within
  unfold one Action.one
  rw [peek?_spanAt]
  cases found : window.peek? cursor with
  | none => exact agree_fail inside within (.refl ctx)
  | some a =>
      apply Agree.bind_same (R := fun _ => True) (fun _ _ => trivial)
      intro passed _
      cases passed with
      | false => exact agree_fail inside within (.refl ctx)
      | true =>
          have before := lt_of_peek? found
          simp only [skip, advance_one before, if_true]
          exact .ok (.matched (Nat.le_succ cursor) before (.refl ctx))

theorem mirrors_literal (order : Comparator α) (atoms : List α) :
    Mirrors window low (literal order atoms : SpanAction α τ) (.literal order window atoms) := by
  induction atoms with
  | nil => exact mirrors_succeed
  | cons expected rest ih =>
      intro ctx cursor above within
      unfold literal Action.literal
      rw [peek?_spanAt]
      cases found : window.peek? cursor with
      | none => exact agree_fail inside within (.refl ctx)
      | some a =>
          have before := lt_of_peek? found
          dsimp only
          split
          · rw [advance_one before, Fault.ok_bind]
            exact ih.further above (Nat.le_succ cursor) before (.refl ctx)
          · exact agree_fail inside within (.refl ctx)

theorem mirrors_backref (order : Comparator α) (name : String) :
    Mirrors window low (backref order name : SpanAction α τ) (.backref order window name) := by
  intro ctx cursor above within
  apply Agree.bind_same (R := fun _ => True) (fun _ _ => trivial)
  intro range _
  apply Agree.bind_same (R := fun _ => True) (fun _ _ => trivial)
  intro atoms _
  exact mirrors_literal inside order atoms.toList ctx cursor above within

theorem mirrors_endOfInput :
    Mirrors window low (endOfInput : SpanAction α τ) (.endOfInput window) := by
  intro ctx cursor above within
  simp only [endOfInput, Action.endOfInput, isEmpty_spanAt, beq_iff_eq]
  split
  · exact .ok (.matched (Nat.le_refl cursor) within (.refl ctx))
  · exact agree_fail inside within (.refl ctx)

omit inside in
theorem mirrors_skip (count : Nat) :
    Mirrors window low (skip count : SpanAction α τ) (.skip window count) := by
  intro ctx cursor above within
  simp only [skip, Action.skip, advance_spanAt]
  split
  · next enough =>
      have bounded : cursor + count ≤ window.limit := by
        unfold Window.left at enough
        omega
      exact .ok (.matched (Nat.le_add_right cursor count) bounded (.refl ctx))
  · exact .error _

omit inside in
theorem mirrors_failAt (offset : Nat) :
    Mirrors window low (failAt offset : SpanAction α τ) (.failAt window offset) := by
  intro ctx cursor above within
  simp only [failAt, Action.failAt, failAt_spanAt]
  split
  · exact .ok (.failed (.refl ctx))
  · exact .error _

theorem Mirrors.choice {actions : List (SpanAction α τ)} {actions' : List (Action τ)}
    (each : List.Forall₂ (Mirrors window low) actions actions') :
    Mirrors window low (choice actions) (.choice actions') := by
  intro ctx cursor above within
  unfold SpanAction.choice
  rw [fail_spanAt (Nat.le_trans within inside), Fault.ok_bind]
  exact Mirrors.firstOf each cursor ctx cursor above within rfl

theorem Mirrors.nonEmpty (mirrors : Mirrors window low action action') :
    Mirrors window low action.nonEmpty action'.nonEmpty := by
  intro ctx cursor above within
  apply (mirrors ctx cursor above within).bind
  intro _ _ _ tells
  cases tells with
  | @matched next ctx' forward bounded grows =>
      simp only [isValid_spanAt, cursor?_spanAt, Option.some.injEq, true_and]
      by_cases idle : next = cursor
      · rw [if_pos idle, if_pos idle]
        apply Agree.bind_same grows.rewind
        intro after ⟨_, grows'⟩
        exact agree_fail inside within grows'
      · rw [if_neg idle, if_neg idle]
        exact .ok (.matched forward bounded grows)
  | failed grows => exact .ok (.failed grows)

theorem Mirrors.notAhead (mirrors : Mirrors window low action action') :
    Mirrors window low action.notAhead action'.notAhead := by
  intro ctx cursor above within
  apply (mirrors.probe ctx cursor above within).bind
  intro _ _ _ tells
  cases tells with
  | matched _ _ grows => exact agree_fail inside within grows
  | failed grows => exact .ok (.matched (Nat.le_refl cursor) within grows)

theorem Mirrors.upTo (mirrors : Mirrors window low action action') :
    ∀ left ctx cursor, low ≤ cursor → cursor + left = window.limit →
      Agree (window.Tells ctx cursor) (action.upTo (left + 1) ctx (window.spanAt cursor))
        (action'.upTo left ctx cursor) := by
  intro left
  induction left with
  | zero =>
      intro ctx cursor above place
      have within : cursor ≤ window.limit := Nat.le_of_eq place
      apply (mirrors.probe ctx cursor above within).bind
      intro _ _ _ tells
      cases tells with
      | matched _ _ grows => exact .ok (.matched (Nat.le_refl cursor) within grows)
      | failed grows =>
          have ended : window.peek? cursor = none :=
            if_neg (Nat.not_lt_of_le (Nat.le_of_eq place.symm))
          simp only [peek?_spanAt, ended]
          exact agree_fail inside within grows
  | succ left ih =>
      intro ctx cursor above place
      have before : cursor < window.limit := by omega
      apply (mirrors.probe ctx cursor above (Nat.le_of_lt before)).bind
      intro _ _ _ tells
      cases tells with
      | matched _ _ grows => exact .ok (.matched (Nat.le_refl cursor) (Nat.le_of_lt before) grows)
      | @failed offset ctx' grows =>
          obtain ⟨a, found⟩ := peek?_isSome inside before
          simp only [peek?_spanAt, found, advance_one before, Fault.ok_bind]
          apply (ih ctx' (cursor + 1) (Nat.le_succ_of_le above) (by omega)).mono
          intro _ _ tells
          exact tells.later (Nat.le_succ cursor) grows

theorem Mirrors.blockRounds (mirrors : Mirrors window low item item')
    (closes : Mirrors window low closing closing') (rounds : Nat) :
    Mirrors window low (item.blockRounds closing rounds) (item'.blockRounds closing' rounds) := by
  induction rounds with
  | zero => exact mirrors_stop _
  | succ rounds ih =>
      intro ctx cursor above within
      unfold SpanAction.blockRounds Action.blockRounds
      refine closes.closeOr mirrors ?_ ctx cursor above within
      intro ctx next above' bounded
      simp only [cursor?_spanAt, Option.some.injEq]
      split
      · exact agree_fail inside within (.refl ctx)
      · exact ih ctx next above' bounded

theorem Mirrors.listRounds (mirrors : Mirrors window low item item')
    (separates : Mirrors window low separator separator')
    (closes : Mirrors window low closing closing') (rounds : Nat) :
    Mirrors window low (item.listRounds separator closing rounds)
      (item'.listRounds separator' closing' rounds) := by
  induction rounds with
  | zero => exact mirrors_stop _
  | succ rounds ih =>
      intro ctx cursor above within
      unfold SpanAction.listRounds Action.listRounds
      refine closes.closeOr mirrors ?_ ctx cursor above within
      intro ctx afterItem above' within'
      refine closes.closeOr separates ?_ ctx afterItem above' within'
      intro ctx next above'' bounded
      simp only [cursor?_spanAt, Option.some.injEq]
      split
      · exact agree_fail inside within' (.refl ctx)
      · exact ih ctx next above'' bounded

end Inside

end SpanAction

/-! ## Whole matchers -/

section Whole

variable {α τ ρ : Type} [Atom α] {window : Window α} {low : Nat} {order : Comparator α}
  {enter : SpanAction α τ → SpanAction α τ}

/-- What is done to a matcher that is run changes nothing where it is run on a valid span of the
window, from a place on. -/
def SpanAction.Transparent (window : Window α) (low : Nat) (enter : SpanAction α τ → SpanAction α τ) :
    Prop :=
  ∀ action ctx cursor, low ≤ cursor → cursor ≤ window.limit →
    enter action ctx (window.spanAt cursor) = action ctx (window.spanAt cursor)

omit [Atom α] in
theorem SpanAction.Mirrors.entered {action : SpanAction α τ} {action' : Action τ}
    (mirrors : Mirrors window low action action') (transparent : Transparent window low enter) :
    Mirrors window low (enter action) action' := by
  intro ctx cursor above within
  rw [transparent action ctx cursor above within]
  exact mirrors ctx cursor above within

open SpanAction in
mutual

theorem Matcher.onSpan_mirrors (inside : window.limit ≤ window.source.size)
    (transparent : Transparent window low enter) {call : ρ → SpanAction α τ} {call' : ρ → Action τ}
    (calls : ∀ rule, Mirrors window low (call rule) (call' rule)) :
    ∀ matcher : Matcher α τ ρ,
      Mirrors window low (matcher.onSpan order enter call) (matcher.eval order window call')
  | .one kind => mirrors_one inside (kind.test order)
  | .literal atoms => mirrors_literal inside order atoms
  | .endOfInput => mirrors_endOfInput inside
  | .seq steps => .sequence (Matcher.enterAll_mirrors inside transparent calls steps)
  | .seqOpt steps => .sequenceOpt (Matcher.enterAll_mirrors inside transparent calls steps)
  | .choice alternatives =>
      .choice inside (Matcher.enterAll_mirrors inside transparent calls alternatives)
  | .nonEmpty inner => (Matcher.entered_mirrors inside transparent calls inner).nonEmpty inside
  | .star inner => (Matcher.entered_mirrors inside transparent calls inner).star
  | .plus inner =>
      (Matcher.entered_mirrors inside transparent calls inner).thenIfMoved
        (Matcher.entered_mirrors inside transparent calls inner).star
  | .opt inner => (Matcher.entered_mirrors inside transparent calls inner).optional
  | .times count inner => (Matcher.entered_mirrors inside transparent calls inner).times count
  | .timesBetween least most inner =>
      (Matcher.entered_mirrors inside transparent calls inner).atLeast
        ((Matcher.entered_mirrors inside transparent calls inner).greedy mirrors_succeed (most - least))
        least
  | .ahead inner => (Matcher.entered_mirrors inside transparent calls inner).ahead
  | .notAhead inner => (Matcher.entered_mirrors inside transparent calls inner).notAhead inside
  | .upTo inner => fun ctx cursor above within =>
      (Matcher.entered_mirrors inside transparent calls inner).upTo inside _ ctx cursor above
        (Nat.add_sub_cancel' within)
  | .block opening item closing =>
      (Matcher.entered_mirrors inside transparent calls opening).andThen fun ctx cursor =>
        (Matcher.entered_mirrors inside transparent calls item).blockRounds inside
          (Matcher.entered_mirrors inside transparent calls closing) _ ctx cursor
  | .list opening item separator closing =>
      (Matcher.entered_mirrors inside transparent calls opening).andThen fun ctx cursor =>
        (Matcher.entered_mirrors inside transparent calls item).listRounds inside
          (Matcher.entered_mirrors inside transparent calls separator)
          (Matcher.entered_mirrors inside transparent calls closing) _ ctx cursor
  | .store name inner => (Matcher.entered_mirrors inside transparent calls inner).store name
  | .backref name => mirrors_backref inside order name
  | .node tag bookmark inner =>
      (Matcher.entered_mirrors inside transparent calls inner).node tag bookmark
  | .promote inner => (Matcher.entered_mirrors inside transparent calls inner).promote
  | .rule name => (calls name).entered transparent
  | .skip count => mirrors_skip count
  | .failAt offset => mirrors_failAt offset

theorem Matcher.entered_mirrors (inside : window.limit ≤ window.source.size)
    (transparent : Transparent window low enter) {call : ρ → SpanAction α τ} {call' : ρ → Action τ}
    (calls : ∀ rule, Mirrors window low (call rule) (call' rule)) (matcher : Matcher α τ ρ) :
    Mirrors window low (enter (matcher.onSpan order enter call)) (matcher.eval order window call') :=
  (Matcher.onSpan_mirrors inside transparent calls matcher).entered transparent

theorem Matcher.enterAll_mirrors (inside : window.limit ≤ window.source.size)
    (transparent : Transparent window low enter) {call : ρ → SpanAction α τ} {call' : ρ → Action τ}
    (calls : ∀ rule, Mirrors window low (call rule) (call' rule)) :
    ∀ matchers : List (Matcher α τ ρ),
      List.Forall₂ (Mirrors window low) (Matcher.enterAll order enter call matchers)
        (Matcher.evalAll order window call' matchers)
  | [] => .nil
  | matcher :: rest =>
      .cons ((Matcher.onSpan_mirrors inside transparent calls matcher).entered transparent)
        (Matcher.enterAll_mirrors inside transparent calls rest)

end

open SpanAction

theorem Grammar.callOn_mirrors (inside : window.limit ≤ window.source.size)
    (transparent : Transparent window low enter) (grammar : Grammar α τ ρ) (depth : Nat) :
    ∀ rule, Mirrors window low (grammar.callOn order enter depth rule)
      (grammar.call order window depth rule) := by
  induction depth with
  | zero => exact fun rule => mirrors_stop _
  | succ depth ih => exact fun rule => Matcher.onSpan_mirrors inside transparent ih (grammar rule)

theorem Grammar.enterOn_mirrors (inside : window.limit ≤ window.source.size)
    (transparent : Transparent window low enter) (grammar : Grammar α τ ρ) (depth : Nat)
    (matcher : Matcher α τ ρ) :
    Mirrors window low (grammar.enterOn order depth enter matcher)
      (grammar.run order depth window matcher) :=
  have calls := grammar.callOn_mirrors inside transparent depth
  (Matcher.onSpan_mirrors inside transparent calls matcher).entered transparent

/-- A run on a valid span of an input gives what the action gives at the cursor, whatever `enter`
makes of matchers that are run anywhere else than between the cursor and the limit. -/
theorem Grammar.enterOn_eq {cursor : Nat}
    (inside : cursor ≤ window.limit ∧ window.limit ≤ window.source.size)
    (transparent : Transparent window cursor enter) (grammar : Grammar α τ ρ) (depth : Nat)
    (matcher : Matcher α τ ρ) (ctx : Context τ) :
    grammar.enterOn order depth enter matcher ctx (window.spanAt cursor) =
      grammar.run order depth window matcher ctx cursor >>= fun answer =>
        .ok (answer.1.toSpan window.source window.limit, answer.2) := by
  -- The lowest place is the cursor itself, so nothing is asked about the spans before it.
  have mirrored : Mirrors window cursor (grammar.enterOn order depth enter matcher)
      (grammar.run order depth window matcher) :=
    grammar.enterOn_mirrors inside.2 transparent depth matcher
  have mirrors := mirrored ctx cursor (Nat.le_refl cursor) inside.1
  generalize grammar.enterOn order depth enter matcher ctx (window.spanAt cursor) = answer at mirrors ⊢
  generalize grammar.run order depth window matcher ctx cursor = answer' at mirrors ⊢
  cases mirrors with
  | error fault => rfl
  | ok tells => cases tells <;> rfl

omit [Atom α] in
theorem SpanAction.transparent_id : Transparent window low (id : SpanAction α τ → SpanAction α τ) :=
  fun _ _ _ _ _ => rfl

theorem Grammar.runOn_eq {source : Array α} {cursor limit : Nat}
    (inside : cursor ≤ limit ∧ limit ≤ source.size) (grammar : Grammar α τ ρ) (depth : Nat)
    (matcher : Matcher α τ ρ) (ctx : Context τ) :
    grammar.runOn order depth matcher ctx (.valid source cursor limit) =
      grammar.run order depth ⟨source, limit⟩ matcher ctx cursor >>= fun answer =>
        .ok (answer.1.toSpan source limit, answer.2) := by
  let window : Window α := ⟨source, limit⟩
  have placed : cursor ≤ window.limit ∧ window.limit ≤ window.source.size := inside
  exact grammar.enterOn_eq placed transparent_id depth matcher ctx

omit [Atom α] in
theorem Verdict.verdict_toSpan (source : Array α) (limit : Nat) (verdict : Verdict) :
    (verdict.toSpan source limit).verdict = verdict := by
  cases verdict <;> rfl

theorem Parser.runOn_eq (parser : Parser) (describe : α → String) (grammar : Grammar α τ ρ)
    (depth : Nat) (matcher : Matcher α τ ρ) (ctx : Context τ) (input : Array α) :
    parser.runOn describe (grammar.runOn order depth matcher) ctx input =
      parser.run describe (fun window => grammar.run order depth window matcher) ctx input := by
  unfold runOn run Span.whole
  dsimp only
  rw [grammar.runOn_eq ⟨Nat.zero_le _, Nat.le_refl _⟩ depth matcher, bind_assoc]
  simp only [Fault.ok_bind, Verdict.verdict_toSpan]

end Whole

end PegForest
