import PegForest.Arena

/-!
# Forests of linked nodes

A forest is an ordered list of trees whose nodes live in an arena and refer to each other by id:
siblings form a doubly linked list, a node knows its first and its last child and its parent.  The
roots form such a list as well, from `head` to `tail`.

A watermark is a root, or nothing for the place before the first root; what a match builds comes
after the watermark that it started from.  Links are followed for as many steps as there are nodes,
which is the length of the longest list that a well-linked forest can have; links that lead further
lead round.
-/

set_option autoImplicit false

namespace PegForest

/-- A node is named by the place of its arena at which it was allocated. -/
abbrev NodeId := Nat

structure Node (τ : Type) where
  tag : Option τ
  start : Nat
  stop : Nat
  /-- Whether the node waits for the nodes before it. -/
  bookmark : Bool
  parent : Option NodeId
  prev : Option NodeId
  next : Option NodeId
  firstChild : Option NodeId
  lastChild : Option NodeId
  deriving DecidableEq, Repr

structure Forest (τ : Type) where
  arena : Arena (Node τ)
  head : Option NodeId
  tail : Option NodeId
  created : Nat
  recycled : Nat
  deriving DecidableEq, Repr

namespace Forest

variable {τ : Type}

def empty (arena : Arena (Node τ)) : Forest τ :=
  ⟨arena, none, none, 0, 0⟩

def size (forest : Forest τ) : Nat :=
  forest.arena.size

/-- The bytes that the nodes take, each of them `slot` bytes. -/
def liveBytes (forest : Forest τ) (slot : Nat) : Nat :=
  forest.arena.liveBytes slot

def node (forest : Forest τ) (id : NodeId) : Except Fault (Node τ) :=
  forest.arena.get id

def update (forest : Forest τ) (id : NodeId) (change : Node τ → Node τ) :
    Except Fault (Forest τ) :=
  match forest with
  | ⟨arena, head, tail, created, recycled⟩ => do
      let arena ← arena.modify id change
      return ⟨arena, head, tail, created, recycled⟩

def firstAfter (forest : Forest τ) : Option NodeId → Except Fault (Option NodeId)
  | none => .ok forest.head
  | some mark => do
      let node ← forest.node mark
      return node.next

/-- Let `next` follow a watermark among the roots. -/
def linkAfter (forest : Forest τ) (watermark next : Option NodeId) : Except Fault (Forest τ) :=
  match watermark with
  | none => .ok { forest with head := next }
  | some mark => forest.update mark fun node => { node with next := next }

/-- Change the siblings from `first` on, up to but not including `upto`. -/
def updateSiblings (change : Node τ → Node τ) (upto : Option NodeId) :
    (steps : Nat) → (first : Option NodeId) → Forest τ → Except Fault (Forest τ)
  | _, none, forest => .ok forest
  | 0, some id, forest => if some id = upto then .ok forest else .error (.endlessLinks id)
  | steps + 1, some id, forest =>
      if some id = upto then .ok forest
      else do
        let node ← forest.node id
        let forest ← forest.update id change
        updateSiblings change upto steps node.next forest

/-- The ids of the siblings from `first` on. -/
def siblingsFrom (forest : Forest τ) :
    (steps : Nat) → (first : Option NodeId) → Except Fault (List NodeId)
  | _, none => .ok []
  | 0, some id => .error (.endlessLinks id)
  | steps + 1, some id => do
      let node ← forest.node id
      let rest ← siblingsFrom forest steps node.next
      return id :: rest

end Forest

end PegForest
