import PegForest.Proofs.Forest.Tally
import PegForest.Proofs.Session.Replay

/-!
# What a match keeps

A property of contexts that survives every rewind, every change of the forest and every stored range
survives whole matches.  That the counts of the forest are balanced is such a property, and so is
that a context keeps nothing at all.
-/

set_option autoImplicit false

namespace PegForest

namespace Context

variable {τ : Type} {P : Context τ → Prop}

/-- A property of contexts that no operation of a matcher breaks. -/
structure Kept (P : Context τ → Prop) : Prop where
  rewind : ∀ ctx point, P ctx → Yields P (ctx.rewind point)
  close : ∀ ctx watermark tag start stop bookmark, P ctx →
    Yields P (ctx.close watermark tag start stop bookmark)
  promote : ∀ ctx watermark start stop, P ctx → Yields P (ctx.promote watermark start stop)
  storeRef : ∀ ctx name range, P ctx → Yields P (ctx.storeRef name range)

def Having (P : Context τ → Prop) (ctx ctx' : Context τ) : Prop :=
  ctx = ctx' ∧ P ctx

theorem Kept.concur {computation : Except Fault (Context τ)} (yields : Yields P computation)
    (raises : Raises Fault.IsMisuse computation) :
    Concur Eq (Having P) computation computation :=
  (Concur.of_misuse (fun _ => rfl) raises).and_left yields

theorem Kept.lasting (kept : Kept P) : Lasting Eq (Having P) where
  misused := fun _ => rfl
  rewind := by
    intro before _ ctx _ ⟨same, _⟩ ⟨same', holds⟩
    subst same same'
    exact concur (kept.rewind ctx _ holds) (ctx.rewind_raises _)
  close := by
    intro before _ ctx _ tag start stop bookmark ⟨same, _⟩ ⟨same', holds⟩
    subst same same'
    exact concur (kept.close ctx _ tag start stop bookmark holds)
      (ctx.close_raises _ tag start stop bookmark)
  promote := by
    intro before _ ctx _ start stop ⟨same, _⟩ ⟨same', holds⟩
    subst same same'
    exact concur (kept.promote ctx _ start stop holds) (ctx.promote_raises _ start stop)

theorem Kept.sharesRefs (kept : Kept P) : SharesRefs Eq (Having P) where
  storeRef := by
    intro ctx _ name range ⟨same, holds⟩
    subst same
    exact concur (kept.storeRef ctx name range holds) (ctx.storeRef_raises name range)
  getRef := by
    intro ctx _ name ⟨same, _⟩
    subst same
    exact .of_misuse (fun _ => rfl) (ctx.getRef_raises name)

def Balanced (ctx : Context τ) : Prop :=
  ∀ forest, ctx.forest = some forest → forest.Balanced

theorem balanced_reset (ctx : Context τ) : ctx.reset.Balanced := by
  obtain ⟨refs, forest, log⟩ := ctx
  intro after emptied
  cases forest with
  | none => cases emptied
  | some forest =>
      cases emptied
      rfl

theorem kept_balanced : Kept (Balanced : Context τ → Prop) where
  rewind := by
    intro ⟨refs, forest, log⟩ point balanced
    cases forest with
    | none => exact .ok balanced
    | some forest =>
        refine .bind (forest.recycleTo_balanced (balanced forest rfl) point.tail) ?_
        intro forest' balanced'
        refine .ok fun _ same => ?_
        cases same
        exact balanced'
  close := by
    intro ⟨refs, forest, log⟩ watermark tag start stop bookmark balanced
    cases forest with
    | none => exact .ok balanced
    | some forest =>
        refine .bind (forest.close_balanced (balanced forest rfl) watermark tag start stop bookmark) ?_
        intro forest' balanced'
        refine .ok fun _ same => ?_
        cases same
        exact balanced'
  promote := by
    intro ⟨refs, forest, log⟩ watermark start stop balanced
    cases forest with
    | none => exact .ok balanced
    | some forest =>
        refine .bind (forest.promote_tally watermark start stop) ?_
        intro ⟨_, forest'⟩ same
        refine .ok fun _ same' => ?_
        cases same'
        exact same.balanced (balanced forest rfl)
  storeRef := by
    intro ⟨refs, forest, log⟩ name range balanced
    cases refs with
    | none => exact .error _
    | some refs => exact .ok balanced

/-- No operation of a matcher changes a bare context. -/
theorem kept_bare (log : Array Event) : Kept fun ctx : Context τ => ctx = ⟨none, none, log⟩ where
  rewind := by
    intro ctx point same
    subst same
    exact .ok rfl
  close := by
    intro ctx watermark tag start stop bookmark same
    subst same
    exact .ok rfl
  promote := by
    intro ctx watermark start stop same
    subst same
    exact .ok rfl
  storeRef := by
    intro ctx name range same
    subst same
    exact .error _

end Context

namespace Session

variable {α τ : Type} [Atom α] {P : Context τ → Prop} {ctx : Context τ}

theorem Task.action_keeps (kept : Context.Kept P) (task : Task α τ) {window : Window α}
    (inside : window.limit ≤ window.source.size) {cursor : Nat} (within : cursor ≤ window.limit)
    (holds : P ctx) : Yields (fun answer => P answer.2) (task.action window ctx cursor) := by
  have agree := task.action_agree kept.lasting kept.sharesRefs inside within ⟨rfl, holds⟩
  intro answer returned
  rw [returned] at agree
  obtain ⟨answer', -, related⟩ := agree.of_ok
  exact related.2.2

end Session

end PegForest
