import PegForest.Forest.Basic
import PegForest.Input.Range

/-!
# Walking a forest

`roots` and `children` follow the links forward.  `preorder` follows them backward, from the last
root and from the last child of every node, and lists each node with its depth.
-/

set_option autoImplicit false

namespace PegForest.Forest

variable {τ : Type}

def roots (forest : Forest τ) : Except Fault (List NodeId) :=
  forest.siblingsFrom forest.size forest.head

def children (forest : Forest τ) (id : NodeId) : Except Fault (List NodeId) := do
  let node ← forest.node id
  forest.siblingsFrom forest.size node.firstChild

/-- The ids from `last` back to the first sibling, put in front of `following`. -/
def siblingsUpTo (forest : Forest τ) :
    (steps : Nat) → (last : Option NodeId) → (following : List NodeId) →
      Except Fault (List NodeId)
  | _, none, following => .ok following
  | 0, some id, _ => .error (.endlessLinks id)
  | steps + 1, some id, following => do
      let node ← forest.node id
      siblingsUpTo forest steps node.prev (id :: following)

/-- Each pending node with its descendants, in preorder and with depths. -/
def preorderFrom (forest : Forest τ) :
    (steps : Nat) → (pending : List (Nat × NodeId)) → Except Fault (List (Nat × NodeId))
  | _, [] => .ok []
  | 0, (_, id) :: _ => .error (.endlessLinks id)
  | steps + 1, (depth, id) :: pending => do
      let node ← forest.node id
      let children ← forest.siblingsUpTo forest.size node.lastChild []
      let below := children.map fun child => (depth + 1, child)
      let rest ← preorderFrom forest steps (below ++ pending)
      return (depth, id) :: rest

/-- Every node with its depth, parents before their children. -/
def preorder (forest : Forest τ) : Except Fault (List (Nat × NodeId)) := do
  let roots ← forest.siblingsUpTo forest.size forest.tail []
  forest.preorderFrom forest.size (roots.map fun root => (0, root))

def text {α : Type} (forest : Forest τ) (id : NodeId) (source : Array α) :
    Except Fault (Array α) := do
  let node ← forest.node id
  slice source node.start node.stop

end PegForest.Forest
