/-!
# Events

What a run reports about itself while it goes on: the parser at its ends, the forest when it takes
nodes back, the arena when it grows.  Events carry counts only and never decide anything.
-/

set_option autoImplicit false

namespace PegForest

inductive Event where
  | slabAppended (slabs : Nat)
  | nodesRecycled (count live : Nat)
  | treeReset (nodes slabs created recycled : Nat)
  | parseMatched (nonterminal : String) (consumed size : Nat)
  | parseFailed (nonterminal : String) (offset size : Nat)
  deriving DecidableEq, Repr

namespace Event

def message : Event → String
  | slabAppended _ => "arena appended slab"
  | nodesRecycled _ _ => "recycled speculative nodes"
  | treeReset _ _ _ _ => "resetting tree context"
  | parseMatched _ _ _ => "parse matched"
  | parseFailed _ _ _ => "parse failed"

def level : Event → String
  | slabAppended _ | nodesRecycled _ _ => "trace"
  | treeReset _ _ _ _ | parseMatched _ _ _ | parseFailed _ _ _ => "debug"

/-- The event of an arena whose number of slabs went from `before` to `after`. -/
def ofGrowth (before after : Nat) : List Event :=
  if before < after then [.slabAppended after] else []

end Event

end PegForest
