import PegForest.Proofs.Action.Ahead

/-!
# Actions on related contexts

Two actions respect a relation between contexts when, from related contexts and one place, they
answer alike and leave related contexts behind.  They are actions of which neither is further into
its input than the other, and so all that is said here is a case of what is said of such actions.
-/

set_option autoImplicit false

namespace PegForest

/-- Relations of faults and of contexts that last when both contexts go back to a checkpoint or
build the same. -/
structure Context.Lasting {τ : Type} (stops : Fault → Fault → Prop)
    (R : Context τ → Context τ → Prop) : Prop where
  misused : ∀ {fault}, fault.IsMisuse → stops fault fault
  rewind : ∀ {before before' ctx ctx'}, R before before' → R ctx ctx' →
    Concur stops R (ctx.rewind before.checkpoint) (ctx'.rewind before'.checkpoint)
  close : ∀ {before before' ctx ctx'} (tag : Option τ) (start stop : Nat) (bookmark : Bool),
    R before before' → R ctx ctx' →
    Concur stops R (ctx.close before.watermark tag start stop bookmark)
      (ctx'.close before'.watermark tag start stop bookmark)
  promote : ∀ {before before' ctx ctx'} (start stop : Nat), R before before' → R ctx ctx' →
    Concur stops R (ctx.promote before.watermark start stop)
      (ctx'.promote before'.watermark start stop)

/-- Contexts that are related store and find the same ranges. -/
structure Context.SharesRefs {τ : Type} (stops : Fault → Fault → Prop)
    (R : Context τ → Context τ → Prop) : Prop where
  storeRef : ∀ {ctx ctx'} (name : String) (range : Range), R ctx ctx' →
    Concur stops R (ctx.storeRef name range) (ctx'.storeRef name range)
  getRef : ∀ {ctx ctx'} (name : String), R ctx ctx' →
    Concur stops Eq (ctx.getRef name) (ctx'.getRef name)

section Misuse

variable {β : Type} {stops : Fault → Fault → Prop}
  (misused : ∀ {fault : Fault}, fault.IsMisuse → stops fault fault)
include misused

theorem Concur.of_misuse {computation : Except Fault β} (raises : Raises Fault.IsMisuse computation) :
    Concur stops Eq computation computation :=
  .refl fun fault stopped => misused (raises fault stopped)

variable {τ : Type}

theorem Context.lasting_eq : Lasting stops (Eq : Context τ → Context τ → Prop) where
  misused := misused
  rewind := by
    rintro before _ ctx _ rfl rfl
    exact .of_misuse misused (ctx.rewind_raises _)
  close := by
    rintro before _ ctx _ tag start stop bookmark rfl rfl
    exact .of_misuse misused (ctx.close_raises _ tag start stop bookmark)
  promote := by
    rintro before _ ctx _ start stop rfl rfl
    exact .of_misuse misused (ctx.promote_raises _ start stop)

theorem Context.sharesRefs_eq : SharesRefs stops (Eq : Context τ → Context τ → Prop) where
  storeRef := by
    rintro ctx _ name range rfl
    exact .of_misuse misused (ctx.storeRef_raises name range)
  getRef := by
    rintro ctx _ name rfl
    exact .of_misuse misused (ctx.getRef_raises name)

end Misuse

def Context.Flat {τ : Type} (ctx ctx' : Context τ) : Prop :=
  ctx.forest = none ∧ ctx'.forest = none

theorem Context.lasting_flat {τ : Type} :
    Lasting Eq (Flat : Context τ → Context τ → Prop) where
  misused := fun _ => rfl
  rewind := by
    rintro before before' ⟨refs, _, log⟩ ⟨refs', _, log'⟩ - ⟨rfl, rfl⟩
    exact .ok ⟨rfl, rfl⟩
  close := by
    rintro before before' ⟨refs, _, log⟩ ⟨refs', _, log'⟩ tag start stop bookmark - ⟨rfl, rfl⟩
    exact .ok ⟨rfl, rfl⟩
  promote := by
    rintro before before' ⟨refs, _, log⟩ ⟨refs', _, log'⟩ start stop - ⟨rfl, rfl⟩
    exact .ok ⟨rfl, rfl⟩

namespace Zone

variable {α τ : Type} {zone : Zone α} {R : Context τ → Context τ → Prop} {cursor : Nat}

/-- Answers from one place, which lead to another one or to a failure. -/
inductive Answers (zone : Zone α) (R : Context τ → Context τ → Prop) (cursor : Nat) :
    Verdict × Context τ → Verdict × Context τ → Prop where
  | matched {next : Nat} {ctx ctx' : Context τ} (forward : cursor ≤ next)
      (bounded : next ≤ zone.limit) (related : R ctx ctx') :
      Answers zone R cursor (.matched next, ctx) (.matched next, ctx')
  | failed {offset : Nat} {ctx ctx' : Context τ} (falls : zone.Fails cursor offset)
      (related : R ctx ctx') : Answers zone R cursor (.failed offset, ctx) (.failed offset, ctx')

theorem answersAhead_zero {answer answer' : Verdict × Context τ} :
    zone.AnswersAhead 0 R cursor answer answer' ↔ zone.Answers R cursor answer answer' := by
  constructor
  · intro answers
    cases answers with
    | matched forward bounded related => exact .matched forward bounded related
    | failed falls related => exact .failed falls related
  · intro answers
    cases answers with
    | matched forward bounded related =>
        exact .matched forward bounded related
    | failed falls related => exact .failed falls related

end Zone

namespace Action

variable {α τ : Type} {zone : Zone α} {stops : Fault → Fault → Prop}
  {R : Context τ → Context τ → Prop}

/-- The actions answer alike from related contexts at every place of the zone. -/
def Respects (stops : Fault → Fault → Prop) (R : Context τ → Context τ → Prop) (zone : Zone α)
    (action other : Action τ) : Prop :=
  ∀ ctx ctx' cursor, zone.Holds cursor → R ctx ctx' →
    Concur stops (zone.Answers R cursor) (action ctx cursor) (other ctx' cursor)

variable {action first second last item separator closing action' first' second' last' item'
  separator' closing' : Action τ}

theorem respects_iff : Respects stops R zone action action' ↔
    RespectsAhead 0 stops R zone action action' := by
  constructor
  · intro respects ctx ctx' cursor holds related
    apply (respects ctx ctx' cursor holds related).mono
    intro _ _ answers
    exact Zone.answersAhead_zero.mpr answers
  · intro respects ctx ctx' cursor holds related
    apply (respects ctx ctx' cursor holds related).mono
    intro _ _ answers
    exact Zone.answersAhead_zero.mp answers

end Action

/-! ## Matchers -/

section Matchers

variable {α β τ ρ : Type} {key : α → β} {zone : Zone α} {stops : Fault → Fault → Prop}
  {R : Context τ → Context τ → Prop}

theorem Context.Lasting.ahead (lasting : Lasting stops R) : LastingAhead 0 stops R :=
  ⟨lasting.misused, lasting.rewind, lasting.close, lasting.promote⟩

theorem Context.SharesRefs.ahead {window : Window β} (shares : SharesRefs stops R)
    (misused : ∀ {fault : Fault}, fault.IsMisuse → stops fault fault)
    (sliced : ∀ start stop, slice window.source start stop =
      (slice zone.source start stop).map (Array.map key)) :
    SharesAhead 0 stops R zone key window where
  storeRef := by
    intro ctx ctx' name start stop _ _ _ related
    exact shares.storeRef name ⟨start, stop⟩ related
  stored := by
    intro ctx ctx' name related
    apply (shares.getRef name related).bind
    rintro range _ rfl
    rw [sliced]
    cases cut : slice zone.source range.start range.stop with
    | ok atoms => exact .ok rfl
    | error fault => exact .error (misused (slice_raises _ _ _ fault cut))

theorem Zone.views_map (misused : ∀ {fault : Fault}, fault.IsMisuse → stops fault fault) :
    zone.Views 0 stops key (zone.toWindow.map key) where
  limit := rfl
  peek? := fun cursor _ => zone.toWindow.peek?_map cursor
  advance := fun _ _ => misused nofun
  named := fun _ => ⟨rfl, Array.size_map⟩

variable [Atom α] [Atom β] {order : Comparator α} {order' : Comparator β}

theorem Matcher.eval_respects (lasting : Context.Lasting stops R)
    (keyed : order.Keyed stops key order') {call call' : ρ → Action τ} (matcher : Matcher α τ ρ)
    (every : matcher.Every (Asks (Context.SharesRefs stops R) zone.strict fun name =>
      (call name).Respects stops R zone (call' name))) :
    (matcher.eval order zone.toWindow call).Respects stops R zone
      ((matcher.mapAtoms key).eval order' (zone.toWindow.map key) call') := by
  apply Action.respects_iff.mpr
  apply Matcher.eval_respectsAhead lasting.ahead keyed (Zone.views_map lasting.misused) matcher
  intro part partOf
  apply (every part partOf).imp
  · intro shares
    exact shares.ahead lasting.misused (slice_map zone.source)
  · intro name respects
    exact Action.respects_iff.mp respects

theorem Grammar.run_respects (lasting : Context.Lasting stops R)
    (keyed : order.Keyed stops key order') (bound : stops .exhausted .exhausted)
    {grammar : Grammar α τ ρ} (depth : Nat) (matcher : Matcher α τ ρ)
    (uses : ∀ inner, grammar.Uses matcher inner →
      inner.Asks (Context.SharesRefs stops R) zone.strict fun _ => True) :
    (grammar.run order depth zone.toWindow matcher).Respects stops R zone
      ((grammar.mapAtoms key).run order' depth (zone.toWindow.map key) (matcher.mapAtoms key)) := by
  apply Action.respects_iff.mpr
  apply Grammar.run_respectsAhead lasting.ahead keyed (Zone.views_map lasting.misused) bound
  intro inner used
  apply (uses inner used).imp
  · intro shares
    exact shares.ahead lasting.misused (slice_map zone.source)
  · intro _ _
    trivial

/-! ## The same matcher twice -/

omit [Atom β] in
theorem Comparator.Keyed.refl (misused : ∀ {fault : Fault}, fault.IsMisuse → stops fault fault) :
    order.Keyed stops id order where
  compares := fun _ _ => rfl
  emptyRange := fun _ _ => misused nofun

variable (lasting : Context.Lasting stops R)
include lasting

theorem Matcher.eval_respects_same {call call' : ρ → Action τ} (matcher : Matcher α τ ρ)
    (every : matcher.Every (Asks (Context.SharesRefs stops R) zone.strict fun name =>
      (call name).Respects stops R zone (call' name))) :
    (matcher.eval order zone.toWindow call).Respects stops R zone
      (matcher.eval order zone.toWindow call') := by
  have keyed : order.Keyed stops id order := .refl lasting.misused
  have respects := matcher.eval_respects lasting keyed every
  rwa [Matcher.mapAtoms_id, Window.map_id] at respects

theorem Grammar.run_respects_same (bound : stops .exhausted .exhausted) {grammar : Grammar α τ ρ}
    (depth : Nat) (matcher : Matcher α τ ρ)
    (uses : ∀ inner, grammar.Uses matcher inner →
      inner.Asks (Context.SharesRefs stops R) zone.strict fun _ => True) :
    (grammar.run order depth zone.toWindow matcher).Respects stops R zone
      (grammar.run order depth zone.toWindow matcher) := by
  have keyed : order.Keyed stops id order := .refl lasting.misused
  have respects := Grammar.run_respects lasting keyed bound depth matcher uses
  rwa [Grammar.mapAtoms_id, Matcher.mapAtoms_id, Window.map_id] at respects

end Matchers

end PegForest
