import PegForest.Forest.Basic

/-!
# Taking nodes back

The roots after a watermark are freed from the last to the first.  A tree is freed from its root
down, last child first; since children were allocated before their parents, that frees the most
recent node every time.
-/

set_option autoImplicit false

namespace PegForest.Forest

variable {τ : Type}

/-- Free the nodes of `pending` and their descendants, the children of a node from the last to the
first and before what was pending already. -/
def release : (steps : Nat) → (pending : List NodeId) → Forest τ → Except Fault (Forest τ)
  | _, [], forest => .ok forest
  | 0, id :: _, forest => .error (.freeOutOfOrder id forest.arena.last?)
  | steps + 1, id :: pending, ⟨arena, head, tail, created, recycled⟩ => do
      let (node, arena) ← arena.free id
      let forest : Forest τ := ⟨arena, head, tail, created, recycled⟩
      let children ← forest.siblingsFrom forest.size node.firstChild
      release steps (children.reverse ++ pending) forest

def dropRoots (watermark : Option NodeId) :
    (steps : Nat) → Forest τ → Except Fault (Forest τ)
  | steps, forest =>
      if forest.tail = watermark then .ok forest
      else
        match forest.tail, watermark, steps with
        | none, none, _ => .ok forest
        | none, some mark, _ => .error (.notTopLevel mark)
        | some top, _, 0 => .error (.staleId top)
        | some top, _, steps + 1 => do
            let node ← forest.node top
            let forest ← release forest.size [top] { forest with tail := node.prev }
            dropRoots watermark steps forest

/-- Take back every root after a watermark, which has to be a root itself. -/
def recycleTo (forest : Forest τ) (watermark : Option NodeId) : Except Fault (Forest τ) := do
  let before := forest.size
  let forest ← dropRoots watermark forest.size forest
  let forest ← forest.linkAfter watermark none
  return { forest with recycled := forest.recycled + (before - forest.size) }

def reset : Forest τ → Forest τ
  | ⟨arena, _, _, _, _⟩ => ⟨arena.reset, none, none, 0, 0⟩

end PegForest.Forest
