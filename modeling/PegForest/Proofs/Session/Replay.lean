import PegForest.Proofs.Action.Respect
import PegForest.Proofs.Session

/-!
# Sessions on contexts with different slabs

The slabs of an arena are there for the values that are still to come, and no step of a session asks
for them.  So two contexts that hold the same, but were used differently before, go through a
session in the same way: every step answers alike, stops alike, and leaves contexts behind that hold
the same again.  Their checkpoints are the same all the way, and a rewind may name any of them.
-/

set_option autoImplicit false

namespace PegForest.Session

variable {α τ : Type} [Atom α]

inductive Reply (α : Type) where
  | span (span : Span α)
  | parsed (answer : Except ParseError Nat)
  | done

/-- A step together with what it gives back. -/
def Step.reply : Step α τ → Context τ → Except Fault (Reply α × Context τ)
  | matching attempt, ctx => do
      let (span, ctx) ← attempt.run ctx
      return (.span span, ctx)
  | parse task parser describe input, ctx => do
      let (answer, ctx) ← parser.runOn describe task.onSpan ctx input
      return (.parsed answer, ctx)
  | step, ctx => do
      let ctx ← step.run ctx
      return (.done, ctx)

def replies : List (Step α τ) → Context τ → Except Fault (List (Reply α) × Context τ)
  | [], ctx => .ok ([], ctx)
  | step :: rest, ctx => do
      let (reply, ctx) ← step.reply ctx
      let (later, ctx) ← replies rest ctx
      return (reply :: later, ctx)

/-! ## Related contexts -/

variable {base base' : Array Event} {ctx ctx' : Context τ}

/-- From contexts in a relation that lasts, a task answers alike and leaves related contexts. -/
theorem Task.action_agree {R : Context τ → Context τ → Prop} (lasting : Context.Lasting Eq R)
    (shares : Context.SharesRefs Eq R) (task : Task α τ) {window : Window α}
    (inside : window.limit ≤ window.source.size) {cursor : Nat} (within : cursor ≤ window.limit)
    (related : R ctx ctx') :
    Agree (fun answer answer' => answer.1 = answer'.1 ∧ R answer.2 answer'.2)
      (task.action window ctx cursor) (task.action window ctx' cursor) := by
  let zone : Zone α := { window with low := cursor, strict := False, inside }
  have respects : Action.Respects Eq R zone (task.action zone.toWindow)
      (task.action zone.toWindow) := by
    apply Grammar.run_respects_same lasting rfl task.depth task.matcher
    intro inner _
    exact Matcher.asks_of_shares shares (fun _ => id) fun _ _ => trivial
  apply (respects ctx ctx' cursor ⟨Nat.le_refl cursor, within⟩ related).agree.mono
  intro answer answer' answers
  cases answers with
  | matched _ _ related => exact ⟨rfl, related⟩
  | failed _ related => exact ⟨rfl, related⟩

/-! ## The same but for slabs -/

/-- The same answer, on contexts that differ at most in their slabs and have reported the same since
their logs were these. -/
def Alike {β : Type} (base base' : Array Event) (answer answer' : β × Context τ) : Prop :=
  answer.1 = answer'.1 ∧ Context.Displaced 0 base base' answer.2 answer'.2

omit [Atom α] in
theorem lasting_alike :
    Context.Lasting Eq (Context.Displaced 0 base base' : Context τ → Context τ → Prop) := by
  have lasting : Context.LastingAhead 0 Eq
      (Context.Displaced 0 base base' : Context τ → Context τ → Prop) :=
    Context.lastingAhead_displaced (fun _ => rfl) base base'
  exact ⟨lasting.misused, lasting.rewind, lasting.close, lasting.promote⟩

omit [Atom α] in
theorem sharesRefs_alike :
    Context.SharesRefs Eq (Context.Displaced 0 base base' : Context τ → Context τ → Prop) where
  storeRef := by
    intro ctx ctx' name range displaced
    exact (displaced.storeRef name range).concur fun _ => rfl
  getRef := by
    intro ctx ctx' name displaced
    exact (displaced.getRef name).concur fun _ => rfl

theorem Task.action_alike (task : Task α τ) {window : Window α}
    (inside : window.limit ≤ window.source.size) {cursor : Nat} (within : cursor ≤ window.limit)
    (displaced : Context.Displaced 0 base base' ctx ctx') :
    Agree (Alike base base') (task.action window ctx cursor) (task.action window ctx' cursor) :=
  task.action_agree lasting_alike sharesRefs_alike inside within displaced

theorem Match.run_alike (attempt : Match α τ)
    (displaced : Context.Displaced 0 base base' ctx ctx') :
    Agree (Alike base base') (attempt.run ctx) (attempt.run ctx') := by
  by_cases inside : attempt.cursor ≤ attempt.limit ∧ attempt.limit ≤ attempt.source.size
  · rw [attempt.run_of_inside inside, attempt.run_of_inside inside]
    apply (attempt.action_alike inside.2 inside.1 displaced).bind
    intro answer answer' _ alike
    exact .ok ⟨congrArg (·.toSpan attempt.source attempt.limit) alike.1, alike.2⟩
  · rw [attempt.run_of_outside inside, attempt.run_of_outside inside]
    exact .error _

/-- A parse answers alike when it begins, after the reset that it may make, on contexts that hold
the same. -/
theorem run_parser_alike (parser : Parser) (task : Task α τ) (describe : α → String)
    (input : Array α)
    (displaced : Context.Displaced 0 base base' (if parser.reset then ctx.reset else ctx)
      (if parser.reset then ctx'.reset else ctx')) :
    Agree (Alike base base') (parser.runOn describe task.onSpan ctx input)
      (parser.runOn describe task.onSpan ctx' input) := by
  rw [task.runOn_eq, task.runOn_eq]
  apply (task.action_alike (Nat.le_refl _) (Nat.zero_le _) displaced).bind
  rintro ⟨verdict, after⟩ ⟨_, after'⟩ - ⟨rfl, displaced'⟩
  apply Agree.ok
  cases verdict with
  | failed offset => exact ⟨rfl, displaced'.emit rfl⟩
  | matched consumed =>
      dsimp only [Parser.conclude]
      split
      · exact ⟨rfl, displaced'.emit rfl⟩
      · exact ⟨rfl, displaced'.emit rfl⟩

theorem Step.reply_alike (step : Step α τ) (displaced : Context.Displaced 0 base base' ctx ctx') :
    Agree (Alike base base') (step.reply ctx) (step.reply ctx') := by
  cases step with
  | matching attempt =>
      apply (attempt.run_alike displaced).bind
      rintro ⟨span, after⟩ ⟨_, after'⟩ - ⟨rfl, displaced'⟩
      exact .ok ⟨rfl, displaced'⟩
  | parse task parser describe input =>
      have emptied : Context.Displaced 0 base base' (if parser.reset then ctx.reset else ctx)
          (if parser.reset then ctx'.reset else ctx') := by
        split
        · exact displaced.reset
        · exact displaced
      apply (run_parser_alike parser task describe input emptied).bind
      rintro ⟨answer, after⟩ ⟨_, after'⟩ - ⟨rfl, displaced'⟩
      exact .ok ⟨rfl, displaced'⟩
  | reset => exact .ok ⟨rfl, displaced.reset⟩
  | rewind point =>
      apply (displaced.rewind point).bind
      intro after after' _ displaced'
      exact .ok ⟨rfl, displaced'⟩
  | storeRef name range =>
      apply (displaced.storeRef name range).bind
      intro after after' _ displaced'
      exact .ok ⟨rfl, displaced'⟩

theorem replies_alike (steps : List (Step α τ)) :
    ∀ {ctx ctx' : Context τ}, Context.Displaced 0 base base' ctx ctx' →
      Agree (Alike base base') (replies steps ctx) (replies steps ctx') := by
  induction steps with
  | nil =>
      intro ctx ctx' displaced
      exact .ok ⟨rfl, displaced⟩
  | cons step rest ih =>
      intro ctx ctx' displaced
      apply (step.reply_alike displaced).bind
      rintro ⟨reply, after⟩ ⟨_, after'⟩ - ⟨rfl, displaced'⟩
      apply (ih displaced').bind
      rintro ⟨later, last⟩ ⟨_, last'⟩ - ⟨rfl, displaced''⟩
      exact .ok ⟨rfl, displaced''⟩

/-! ## Contexts that hold nothing -/

/-- A text or tree context that holds nothing and has counted nothing, with any slabs and any log. -/
inductive Blank : Bool → Context τ → Prop where
  | text (log : Array Event) : Blank false ⟨some .empty, none, log⟩
  | tree {forest : Forest τ} (represents : forest.Represents []) (created : forest.created = 0)
      (recycled : forest.recycled = 0) (log : Array Event) :
      Blank true ⟨some .empty, some forest, log⟩

variable {builds : Bool}

omit [Atom α] in
theorem Fresh.blank {start : Context τ} (fresh : Fresh builds start) : Blank builds start := by
  have tracks := fresh.tracks
  cases fresh with
  | text => exact .text #[]
  | tree capacity opened =>
      simp only [Context.tree, Arena.withCapacity] at opened
      split at opened
      · cases opened
      · cases opened
        exact .tree tracks.represents rfl rfl #[]

omit [Atom α] in
theorem blank_reset {refs : List Backref} {trees : List (MarkedTree τ)}
    (tracks : ctx.Tracks refs trees builds) : Blank builds ctx.reset := by
  cases tracks with
  | tree represents sound => exact .tree represents.reset rfl rfl _
  | text sound => exact .text _

omit [Atom α] in
theorem Blank.displaced (blank : Blank builds ctx) (blank' : Blank builds ctx') :
    Context.Displaced 0 ctx.log ctx'.log ctx ctx' := by
  have stored : some Backrefs.empty = (some Backrefs.empty).map (Backrefs.displace 0) := by
    rw [Option.map_some, Backrefs.displace_empty]
  cases blank with
  | text log =>
      cases blank' with
      | text log' => exact ⟨stored, .none, .refl log log'⟩
  | tree represents created recycled log =>
      cases blank' with
      | tree represents' created' recycled' log' =>
          refine ⟨stored, .some ⟨?_, ?_, ?_, ?_, ?_⟩, .refl log log'⟩
          · exact Arena.images_nil represents.nodes represents'.nodes
          · exact represents.head.trans represents'.head.symm
          · exact represents.tail.trans represents'.tail.symm
          · exact created.trans created'.symm
          · exact recycled.trans recycled'.symm

end PegForest.Session
