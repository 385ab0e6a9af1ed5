import PegForest.Forest.Close

/-!
# Promoting bookmarks

An operator that is read after its first operand is closed as a bookmark.  Promotion lets each
bookmark adopt the roots before it, from left to right, which gives left-associative shapes.
-/

set_option autoImplicit false

namespace PegForest.Forest

variable {τ : Type}

def adoptPreceding (forest : Forest τ) (watermark : Option NodeId) (id : NodeId) :
    Except Fault (Forest τ) := do
  match ← forest.firstAfter watermark with
  | none => return forest
  | some first =>
      if first = id then return forest
      else
        let node ← forest.node id
        match node.prev with
        | none => .error (.noPredecessor id)
        | some before => do
            let forest ← updateSiblings (fun child => { child with parent := some id })
              (some id) forest.size (some first) forest
            let forest ← forest.update before fun child => { child with next := node.firstChild }
            let forest ← match node.firstChild with
              | some child => forest.update child fun child => { child with prev := some before }
              | none => forest.update id fun node => { node with lastChild := some before }
            let forest ← forest.update first fun child => { child with prev := none }
            let forest ← forest.update id fun node =>
              { node with firstChild := some first, prev := watermark }
            forest.linkAfter watermark (some id)

/-- Let every marked root from `first` on adopt the roots between the watermark and itself and
begin at `start`; the result names the last of them. -/
def promoteFrom (watermark : Option NodeId) (start : Nat) :
    (steps : Nat) → (first promoted : Option NodeId) → Forest τ →
      Except Fault (Option NodeId × Forest τ)
  | _, none, promoted, forest => .ok (promoted, forest)
  | 0, some id, _, _ => .error (.endlessLinks id)
  | steps + 1, some id, promoted, forest => do
      let node ← forest.node id
      if node.bookmark then
        let forest ← forest.adoptPreceding watermark id
        let forest ← forest.update id fun node => { node with bookmark := false, start := start }
        promoteFrom watermark start steps node.next (some id) forest
      else promoteFrom watermark start steps node.next promoted forest

/-- Resolve the marked roots after a watermark from left to right.  Each adopts what stands
between the watermark and itself; the last one then covers the range to its end. -/
def promote (forest : Forest τ) (watermark : Option NodeId) (start stop : Nat) :
    Except Fault (Option NodeId × Forest τ) := do
  let first ← forest.firstAfter watermark
  let (promoted, forest) ← promoteFrom watermark start forest.size first none forest
  match promoted with
  | none => return (none, forest)
  | some outer =>
      let forest ← forest.update outer fun node => { node with stop := stop }
      return (some outer, forest)

end PegForest.Forest
