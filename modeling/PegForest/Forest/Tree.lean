import PegForest.Forest.Walk

/-!
# Trees on their own

A tree is a copy of a node and its descendants that no longer refers to the forest it was taken
from.
-/

set_option autoImplicit false

namespace PegForest

inductive Tree (τ : Type) where
  | node (tag : Option τ) (start stop : Nat) (children : List (Tree τ))

namespace Tree

variable {τ : Type}

def tag : Tree τ → Option τ
  | node tag _ _ _ => tag

def start : Tree τ → Nat
  | node _ start _ _ => start

def stop : Tree τ → Nat
  | node _ _ stop _ => stop

def children : Tree τ → List (Tree τ)
  | node _ _ _ children => children

mutual

def same [DecidableEq τ] : Tree τ → Tree τ → Bool
  | node tag start stop children, node tag' start' stop' children' =>
      tag == tag' && start == start' && stop == stop' && sameAll children children'

def sameAll [DecidableEq τ] : List (Tree τ) → List (Tree τ) → Bool
  | [], [] => true
  | tree :: rest, tree' :: rest' => same tree tree' && sameAll rest rest'
  | _, _ => false

end

mutual

def preorder (depth : Nat) : Tree τ → List (Nat × Tree τ)
  | node tag start stop children =>
      (depth, node tag start stop children) :: preorderAll (depth + 1) children

def preorderAll (depth : Nat) : List (Tree τ) → List (Nat × Tree τ)
  | [] => []
  | tree :: rest => preorder depth tree ++ preorderAll depth rest

end

def text {α : Type} (tree : Tree τ) (source : Array α) : Except Fault (Array α) :=
  slice source tree.start tree.stop

end Tree

namespace Forest

variable {τ : Type}

/-- The trees from `first` on.  Every step goes to a child or to a sibling and so to a node that
was not on the way yet. -/
def treesFrom (forest : Forest τ) :
    (steps : Nat) → (first : Option NodeId) → Except Fault (List (Tree τ))
  | _, none => .ok []
  | 0, some id => .error (.endlessLinks id)
  | steps + 1, some id => do
      let node ← forest.node id
      let children ← treesFrom forest steps node.firstChild
      let rest ← treesFrom forest steps node.next
      return .node node.tag node.start node.stop children :: rest

def freeze (forest : Forest τ) : Except Fault (List (Tree τ)) :=
  forest.treesFrom forest.size forest.head

end Forest

end PegForest
