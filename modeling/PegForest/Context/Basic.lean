import PegForest.Context.Backrefs
import PegForest.Event
import PegForest.Forest.Promote
import PegForest.Forest.Recycle

/-!
# Contexts

A context is what a match changes: the stored backreferences, the forest, and the log of events.
Either of the first two may be absent.  A text context recognises and keeps backreferences, a tree
context builds a forest as well, and a bare context keeps nothing.

A checkpoint records how far both parts have come.  Rewinding takes back what was added since; the
log is never taken back.
-/

set_option autoImplicit false

namespace PegForest

structure Context (τ : Type) where
  refs : Option Backrefs
  forest : Option (Forest τ)
  log : Array Event

/-- The last root and the number of stored backreferences at some time. -/
structure Checkpoint where
  tail : Option NodeId
  mark : Nat
  deriving DecidableEq, Repr

namespace Context

variable {τ : Type}

def bare : Context τ :=
  ⟨none, none, #[]⟩

def text : Context τ :=
  ⟨some .empty, none, #[]⟩

/-- A context that keeps backreferences and builds a forest, with slabs of the given capacity. -/
def tree (capacity : Nat) : Except Fault (Context τ) := do
  let arena ← Arena.withCapacity capacity
  return ⟨some .empty, some (.empty arena), #[]⟩

def freshTree : Context τ :=
  ⟨some .empty, some (.empty (.empty Arena.defaultCapacity)), #[]⟩

def forestD (ctx : Context τ) : Forest τ :=
  ctx.forest.getD (.empty (.empty Arena.defaultCapacity))

def watermark (ctx : Context τ) : Option NodeId :=
  ctx.forest.bind Forest.tail

def checkpoint (ctx : Context τ) : Checkpoint :=
  ⟨ctx.watermark, (ctx.refs.map Backrefs.mark).getD 0⟩

def emit : Context τ → Event → Context τ
  | ⟨refs, forest, log⟩, event => ⟨refs, forest, log.push event⟩

def clearLog : Context τ → Context τ
  | ⟨refs, forest, _⟩ => ⟨refs, forest, #[]⟩

/-- Take back what was added since a checkpoint. -/
def rewind : Context τ → Checkpoint → Except Fault (Context τ)
  | ⟨refs, none, log⟩, point => .ok ⟨refs.map (·.restore point.mark), none, log⟩
  | ⟨refs, some forest, log⟩, point => do
      let before := forest.size
      let forest ← forest.recycleTo point.tail
      let live := forest.size
      let log := if live < before then log.push (.nodesRecycled (before - live) live) else log
      return ⟨refs.map (·.restore point.mark), some forest, log⟩

def reset : Context τ → Context τ
  | ⟨refs, none, log⟩ => ⟨refs.map fun _ => .empty, none, log⟩
  | ⟨refs, some forest, log⟩ =>
      let event := .treeReset forest.size forest.arena.slabCount forest.created forest.recycled
      ⟨refs.map fun _ => .empty, some forest.reset, log.push event⟩

def storeRef : Context τ → String → Range → Except Fault (Context τ)
  | ⟨none, _, _⟩, name, _ => .error (.backrefNoStore name)
  | ⟨some refs, forest, log⟩, name, range => .ok ⟨some (refs.store name range), forest, log⟩

def getRef (ctx : Context τ) (name : String) : Except Fault Range :=
  match ctx.refs.bind (·.get? name) with
  | some range => .ok range
  | none => .error (.backrefMissing name)

/-- Turn the roots after a watermark into the children of a new root. -/
def close (ctx : Context τ) (watermark : Option NodeId) (tag : Option τ) (start stop : Nat)
    (bookmark : Bool) : Except Fault (Context τ) :=
  match ctx with
  | ⟨refs, none, log⟩ => .ok ⟨refs, none, log⟩
  | ⟨refs, some forest, log⟩ => do
      let before := forest.arena.slabCount
      let forest ← forest.close watermark tag start stop bookmark
      return ⟨refs, some forest, log ++ Event.ofGrowth before forest.arena.slabCount⟩

/-- Let marked roots after a watermark adopt the roots before them. -/
def promote (ctx : Context τ) (watermark : Option NodeId) (start stop : Nat) :
    Except Fault (Context τ) :=
  match ctx with
  | ⟨refs, none, log⟩ => .ok ⟨refs, none, log⟩
  | ⟨refs, some forest, log⟩ => do
      let (_, forest) ← forest.promote watermark start stop
      return ⟨refs, some forest, log⟩

end Context

end PegForest
