import PegForest.Fault

/-!
# A stack of values in slabs

An arena keeps values in slabs of a fixed capacity and addresses them by the number of values that
were there before them.  This id is written next to the value as its tag, and values leave in the
opposite order in which they came: the tag of the most recent one tells which value may be freed.
Slabs are never given back: those after the current one stay, empty, and are used again before a new
one is added.

After values have left, the current slab may be empty while the one before it is full; the most
recent value is then in the slab before.
-/

set_option autoImplicit false

namespace PegForest

structure Slot (α : Type) where
  tag : Nat
  value : α
  deriving DecidableEq, Repr

def Slot.map {α : Type} (change : α → α) : Slot α → Slot α
  | ⟨tag, value⟩ => ⟨tag, change value⟩

structure Arena (α : Type) where
  slabs : Array (Array (Slot α))
  /-- The slab that the next value goes to, or the one before it if that one is full. -/
  current : Nat
  capacity : Nat
  size : Nat
  deriving DecidableEq, Repr

namespace Arena

variable {α : Type}

def defaultCapacity : Nat := 1024

def empty (capacity : Nat) : Arena α :=
  ⟨#[#[]], 0, capacity, 0⟩

def withCapacity (capacity : Nat) : Except Fault (Arena α) :=
  if capacity = 0 then .error .zeroSlabCapacity else .ok (empty capacity)

def isEmpty (arena : Arena α) : Bool :=
  arena.size == 0

/-- The bytes that the live values take, each of them `slot` bytes. -/
def liveBytes (arena : Arena α) (slot : Nat) : Nat :=
  arena.size * slot

def slabCount (arena : Arena α) : Nat :=
  arena.slabs.size

def fill (arena : Arena α) (slab : Nat) : Nat :=
  (arena.slabs[slab]?.map Array.size).getD 0

def makeRoom : Arena α → Arena α
  | ⟨slabs, current, capacity, size⟩ =>
      if (slabs[current]?.map Array.size).getD 0 = capacity then
        if current + 1 = slabs.size then ⟨slabs.push #[], current + 1, capacity, size⟩
        else ⟨slabs, current + 1, capacity, size⟩
      else ⟨slabs, current, capacity, size⟩

/-- Add a value; the answer is its id. -/
def bump (arena : Arena α) (value : α) : Nat × Arena α :=
  match arena.makeRoom with
  | ⟨slabs, current, capacity, size⟩ =>
      (size, ⟨slabs.modify current (·.push ⟨size, value⟩), current, capacity, size + 1⟩)

def alloc (arena : Arena α) (value : α) : Arena α :=
  (arena.bump value).2

theorem makeRoom_same (arena : Arena α) :
    arena.makeRoom.size = arena.size ∧ arena.makeRoom.capacity = arena.capacity := by
  unfold makeRoom
  dsimp only
  split
  · split <;> exact ⟨rfl, rfl⟩
  · exact ⟨rfl, rfl⟩

theorem bump_eq (arena : Arena α) (value : α) :
    arena.bump value = (arena.size, arena.alloc value) :=
  Prod.ext arena.makeRoom_same.1 rfl

theorem size_alloc (arena : Arena α) (value : α) : (arena.alloc value).size = arena.size + 1 :=
  congrArg (· + 1) arena.makeRoom_same.1

theorem capacity_alloc (arena : Arena α) (value : α) :
    (arena.alloc value).capacity = arena.capacity :=
  arena.makeRoom_same.2

def topSlab (arena : Arena α) : Nat :=
  if arena.fill arena.current = 0 then arena.current - 1 else arena.current

def top? (arena : Arena α) : Option (Slot α) :=
  arena.slabs[arena.topSlab]?.bind Array.back?

def last? (arena : Arena α) : Option Nat :=
  arena.top?.map Slot.tag

def dropTop (arena : Arena α) : Arena α :=
  let slab := arena.topSlab
  match arena with
  | ⟨slabs, _, capacity, size⟩ => ⟨slabs.modify slab Array.pop, slab, capacity, size - 1⟩

def pop (arena : Arena α) : Option α × Arena α :=
  match arena.top? with
  | none => (none, arena)
  | some slot => (some slot.value, arena.dropTop)

/-- Take the value of an id off, which has to be the most recent one. -/
def free (arena : Arena α) (id : Nat) : Except Fault (α × Arena α) :=
  match arena.top? with
  | none => .error (.freeOutOfOrder id none)
  | some slot =>
      if slot.tag = id then .ok (slot.value, arena.dropTop)
      else .error (.freeOutOfOrder id (some slot.tag))

def get? (arena : Arena α) (id : Nat) : Option α :=
  if id < arena.size then
    (arena.slabs[id / arena.capacity]?.bind fun slab => slab[id % arena.capacity]?).map Slot.value
  else none

/-- The value of an id, which has to be live. -/
def get (arena : Arena α) (id : Nat) : Except Fault α :=
  match arena.get? id with
  | some value => .ok value
  | none => .error (.staleId id)

def modify (arena : Arena α) (id : Nat) (change : α → α) : Except Fault (Arena α) :=
  match arena with
  | ⟨slabs, current, capacity, size⟩ =>
      if id < size then
        .ok ⟨slabs.modify (id / capacity) (·.modify (id % capacity) (Slot.map change)),
          current, capacity, size⟩
      else .error (.staleId id)

/-- Drop all values and keep the slabs. -/
def reset : Arena α → Arena α
  | ⟨slabs, current, capacity, _⟩ =>
      ⟨slabs.mapIdx fun i slab => if i ≤ current then #[] else slab, 0, capacity, 0⟩

end Arena

end PegForest
