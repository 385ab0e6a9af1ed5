import PegForest.Forest.Basic

/-!
# Closing a node

A forest grows at its end: the roots after a watermark become the children of a new root.  Children
are there before their parent, so a parent has a greater id than all of its descendants.
-/

set_option autoImplicit false

namespace PegForest.Forest

variable {τ : Type}

/-- Add a node that nothing links to yet; the answer is its id. -/
def add (forest : Forest τ) (node : Node τ) : NodeId × Forest τ :=
  match forest with
  | ⟨arena, head, tail, created, recycled⟩ =>
      match arena.bump node with
      | (id, arena) => (id, ⟨arena, head, tail, created + 1, recycled⟩)

theorem add_eq (forest : Forest τ) (node : Node τ) :
    forest.add node = (forest.size,
      { forest with arena := forest.arena.alloc node, created := forest.created + 1 }) := by
  obtain ⟨arena, head, tail, created, recycled⟩ := forest
  simp only [add, Arena.bump_eq]
  rfl

/-- Add a root over the roots after a watermark, which become its children. -/
def close (forest : Forest τ) (watermark : Option NodeId) (tag : Option τ) (start stop : Nat)
    (bookmark : Bool) : Except Fault (Forest τ) := do
  let first ← forest.firstAfter watermark
  let node : Node τ :=
    { tag, start, stop, bookmark
      parent := none
      prev := watermark
      next := none
      firstChild := first
      lastChild := first.bind fun _ => forest.tail }
  let (id, forest) := forest.add node
  let forest ← updateSiblings (fun child => { child with parent := some id, bookmark := false })
    none forest.size first forest
  let forest ← match first with
    | none => pure forest
    | some first => forest.update first fun child => { child with prev := none }
  let forest ← forest.linkAfter watermark (some id)
  return { forest with tail := some id }

end PegForest.Forest
