import PegForest.Proofs.Forest.Preorder
import PegForest.Proofs.Session

/-!
# Traversals of what a session has built

After every session the walk along backward links lists, node by node, what freezing collects along
forward links.
-/

set_option autoImplicit false

namespace PegForest.Session

variable {α τ : Type} [Atom α]

/-- The two traversals of a tree context agree, and between them no node is missed or met twice. -/
theorem traversals_agree {capacity : Nat} {start ctx : Context τ} {steps : List (Step α τ)}
    (opened : Context.tree capacity = .ok start) (reached : run steps start = .ok ctx) :
    ∃ forest trees entries, ctx.forest = some forest ∧ forest.freeze = .ok trees ∧
      forest.preorder = .ok entries ∧ forest.Traverses trees entries := by
  have fresh : Fresh true start := .tree capacity opened
  obtain ⟨refs, trees, tracks⟩ := tracks_run reached fresh.tracks
  cases tracks with
  | tree represents _ =>
      exact ⟨_, _, _, rfl, represents.freeze_eq, represents.preorder_eq, represents.traverses⟩

theorem traversals_agree_adopting :
    ∃ start ctx : Context Nat, Context.tree 2 = .ok start ∧
      run [.matching adopting, .matching abandoned, .matching adopting] start = .ok ctx ∧
      ∃ forest trees entries, ctx.forest = some forest ∧ forest.freeze = .ok trees ∧
        forest.preorder = .ok entries ∧ forest.Traverses trees entries := by
  have returns : (run [.matching adopting, .matching abandoned, .matching adopting]
      smallTree).toBool = true := by decide +kernel
  obtain ⟨ctx, reached⟩ := Fault.exists_of_toBool returns
  exact ⟨_, ctx, opened_smallTree, reached, traversals_agree opened_smallTree reached⟩

end PegForest.Session
