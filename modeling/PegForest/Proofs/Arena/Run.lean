import Mathlib.Algebra.Order.Floor.Div
import Mathlib.GroupTheory.GroupAction.Ring
import PegForest.Proofs.Arena.Stack

/-!
# Runs of an arena

A fresh arena is driven by operations, one after another, and so is a list that is used as a stack.
Both give the same answers, faults included.  An operation that stops changes nothing.

The slabs of an arena remember one thing that the stack forgets: how high it has been.  There are as
many slabs as the largest number of values so far needs, whether values were taken off since or all
of them were dropped.
-/

set_option autoImplicit false

namespace PegForest.Arena

inductive Op (α : Type) where
  | alloc (value : α)
  | pop
  | free (id : Nat)
  | get (id : Nat)
  | modify (id : Nat) (change : α → α)
  | last
  | reset

inductive Answer (α : Type) where
  | done
  | id (id : Option Nat)
  | value (value : Option α)

variable {α : Type}

def Op.run (arena : Arena α) : Op α → Except Fault (Answer α) × Arena α
  | alloc value => (.ok (.id (some (arena.bump value).1)), (arena.bump value).2)
  | pop => (.ok (.value arena.pop.1), arena.pop.2)
  | free id =>
      match arena.free id with
      | .ok (value, rest) => (.ok (.value (some value)), rest)
      | .error fault => (.error fault, arena)
  | get id => ((arena.get id).map fun value => .value (some value), arena)
  | modify id change =>
      match arena.modify id change with
      | .ok changed => (.ok .done, changed)
      | .error fault => (.error fault, arena)
  | last => (.ok (.id arena.last?), arena)
  | reset => (.ok .done, arena.reset)

def topIndex (values : List α) : Option Nat :=
  values.getLast?.map fun _ => values.length - 1

def Op.onStack (values : List α) : Op α → Except Fault (Answer α) × List α
  | alloc value => (.ok (.id (some values.length)), values ++ [value])
  | pop => (.ok (.value values.getLast?), values.dropLast)
  | free id =>
      if topIndex values = some id then (.ok (.value values.getLast?), values.dropLast)
      else (.error (.freeOutOfOrder id (topIndex values)), values)
  | get id =>
      if id < values.length then (.ok (.value values[id]?), values) else (.error (.staleId id), values)
  | modify id change =>
      if id < values.length then (.ok .done, values.modify id change)
      else (.error (.staleId id), values)
  | last => (.ok (.id (topIndex values)), values)
  | reset => (.ok .done, [])

def run : List (Op α) → Arena α → List (Except Fault (Answer α)) × Arena α
  | [], arena => ([], arena)
  | op :: rest, arena =>
      ((op.run arena).1 :: (run rest (op.run arena).2).1, (run rest (op.run arena).2).2)

def onStack : List (Op α) → List α → List (Except Fault (Answer α)) × List α
  | [], values => ([], values)
  | op :: rest, values =>
      ((op.onStack values).1 :: (onStack rest (op.onStack values).2).1,
        (onStack rest (op.onStack values).2).2)

def peak : List (Op α) → List α → Nat
  | [], values => values.length
  | op :: rest, values => max values.length (peak rest (op.onStack values).2)

/-! ## Slabs -/

theorem ceilDiv_eq_add_one {n k capacity : Nat} (more : k * capacity < n)
    (atMost : n ≤ (k + 1) * capacity) : n ⌈/⌉ capacity = k + 1 := by
  have positive : 0 < capacity := by
    rcases Nat.eq_zero_or_pos capacity with rfl | positive
    · simp at more atMost
      omega
    · exact positive
  apply Nat.le_antisymm
  · rw [ceilDiv_le_iff_le_mul positive, Nat.mul_comm]
    exact atMost
  · by_contra fewer
    have bound : n ⌈/⌉ capacity ≤ k := by omega
    rw [ceilDiv_le_iff_le_mul positive, Nat.mul_comm] at bound
    omega

theorem ceilDiv_max {capacity : Nat} (positive : 0 < capacity) (m n : Nat) :
    max m n ⌈/⌉ capacity = max (m ⌈/⌉ capacity) (n ⌈/⌉ capacity) :=
  (gc_smul_ceilDiv positive).l_sup

theorem Arranged.length_contents {arena : Arena α} {full : List (Array (Slot α))}
    {slab : Array (Slot α)} {spare : Nat} (arranged : Arranged arena full slab spare) :
    (contents full slab).length = full.length * arena.capacity + slab.size := by
  have widths : full.map (fun s => s.toList.length) = full.map fun _ => arena.capacity := by
    apply List.map_congr_left
    intro s member
    rw [Array.length_toList, arranged.filled s member]
  rw [contents, List.length_append, List.length_flatMap, widths, List.map_const',
    List.sum_replicate_nat, @Array.length_toList _ slab]

theorem slabCount_alloc {arena : Arena α} {values : List α} (stacked : arena.Stacks values)
    (value : α) :
    (arena.alloc value).slabCount =
      max arena.slabCount ((values.length + 1) ⌈/⌉ arena.capacity) := by
  obtain ⟨full, slab, spare, arranged, view⟩ := stacked
  have room : (arena.alloc value).slabCount = arena.makeRoom.slabCount := by
    simp [slabCount, Arena.alloc, bump]
  have found := arranged.slab?_current
  have count := arranged.slabs_size
  have length := arranged.length_contents
  have place := arranged.current
  have fits := arranged.fits
  have positive := arranged.positive
  rw [room, ← length_tagged, view, length]
  unfold makeRoom slabCount
  simp only [found, Option.map_some, Option.getD_some]
  by_cases packed : slab.size = arena.capacity
  · -- The next value opens the slab after the current one.
    have next := Nat.add_one_mul full.length arena.capacity
    have afterNext := Nat.add_one_mul (full.length + 1) arena.capacity
    have needed : (full.length * arena.capacity + slab.size + 1) ⌈/⌉ arena.capacity =
        full.length + 1 + 1 := by
      apply ceilDiv_eq_add_one
      · omega
      · omega
    rw [needed, if_pos packed]
    by_cases atEnd : arena.current + 1 = arena.slabs.size
    · rw [if_pos atEnd, Array.size_push]
      omega
    · rw [if_neg atEnd]
      dsimp only
      omega
  · have needed : (full.length * arena.capacity + slab.size + 1) ⌈/⌉ arena.capacity =
        full.length + 1 := by
      apply ceilDiv_eq_add_one
      · omega
      · rw [Nat.add_one_mul]
        omega
    rw [needed, if_neg packed]
    dsimp only
    omega

/-- Every slab before the current one is full, every one after it is empty. -/
def Packed (arena : Arena α) : Prop :=
  ∀ i slab, arena.slabs[i]? = some slab →
    (i < arena.current → slab.size = arena.capacity) ∧ (arena.current < i → slab.size = 0)

theorem Stacks.packed {arena : Arena α} {values : List α} (stacked : arena.Stacks values) :
    arena.current < arena.slabCount ∧ arena.Packed := by
  obtain ⟨full, slab, spare, arranged, -⟩ := stacked
  have count := arranged.slabs_size
  have place := arranged.current
  refine ⟨by unfold slabCount; omega, ?_⟩
  intro i s found
  rw [← Array.getElem?_toList, arranged.slabs] at found
  constructor
  · intro before
    rw [List.getElem?_append_left (by omega)] at found
    exact arranged.filled s (List.mem_of_getElem? found)
  · intro after
    obtain ⟨k, rfl⟩ : ∃ k, i = full.length + (k + 1) := ⟨i - full.length - 1, by omega⟩
    rw [List.getElem?_append_right (by omega), Nat.add_sub_cancel_left, List.getElem?_cons_succ]
      at found
    have empty := List.eq_of_mem_replicate (List.mem_of_getElem? found)
    rw [empty, Array.size_empty]

/-! ## The top -/

theorem Stacks.positive {arena : Arena α} {values : List α} (stacked : arena.Stacks values) :
    0 < arena.capacity := by
  obtain ⟨full, slab, spare, arranged, -⟩ := stacked
  exact arranged.positive

theorem top?_of_empty {arena : Arena α} (stacked : arena.Stacks []) : arena.top? = none := by
  obtain ⟨full, slab, spare, arranged, view⟩ := stacked
  have length := arranged.length_contents
  rw [← view, length_tagged, List.length_nil] at length
  have vacant : slab.size = 0 := by omega
  have first : full.length = 0 := by
    have nothing : full.length * arena.capacity = 0 := by omega
    exact (Nat.mul_eq_zero.mp nothing).resolve_right (Nat.ne_of_gt arranged.positive)
  have found := arranged.slab?_current
  have place : arena.current = 0 := arranged.current.trans first
  rw [place] at found
  have top : arena.topSlab = 0 := by simp [topSlab, place]
  rw [top?, top, found, Option.bind_some, Array.back?_eq_none_iff]
  exact Array.eq_empty_of_size_eq_zero vacant

/-- The tag of the most recent value is its place. -/
theorem Stacks.top?_eq {arena : Arena α} {values : List α} (stacked : arena.Stacks values) :
    arena.top? = values.getLast?.map (Slot.mk (values.length - 1)) := by
  rcases List.eq_nil_or_concat' values with rfl | ⟨front, value, rfl⟩
  · exact top?_of_empty stacked
  · rw [stacked.top.1, List.getLast?_concat, List.length_append, List.length_singleton,
      Nat.add_sub_cancel]
    rfl

theorem Stacks.last?_eq {arena : Arena α} {values : List α} (stacked : arena.Stacks values) :
    arena.last? = topIndex values := by
  rw [last?, topIndex, stacked.top?_eq, Option.map_map]
  rfl

theorem Stacks.dropTop {arena : Arena α} {values : List α} {value : α} (stacked : arena.Stacks values)
    (top : values.getLast? = some value) : arena.dropTop.Stacks values.dropLast := by
  rcases List.eq_nil_or_concat' values with rfl | ⟨front, value', rfl⟩
  · cases top
  · rw [List.dropLast_concat]
    exact stacked.top.2

theorem Stacks.free_top {arena : Arena α} {values : List α} {id : Nat} (stacked : arena.Stacks values)
    (latest : topIndex values = some id) :
    ∃ value, values.getLast? = some value ∧ arena.free id = .ok (value, arena.dropTop) := by
  obtain ⟨value, top, place⟩ := Option.map_eq_some_iff.mp latest
  refine ⟨value, top, ?_⟩
  rw [Arena.free, stacked.top?_eq, top]
  exact if_pos place

theorem Stacks.free_other {arena : Arena α} {values : List α} {id : Nat}
    (stacked : arena.Stacks values) (other : topIndex values ≠ some id) :
    arena.free id = .error (.freeOutOfOrder id (topIndex values)) := by
  unfold topIndex at other ⊢
  rw [Arena.free, stacked.top?_eq]
  cases top : values.getLast? with
  | none => rfl
  | some value =>
      rw [top, Option.map_some, ne_eq, Option.some_inj] at other
      exact if_neg other

/-! ## One operation -/

/-- The arena holds the values of a stack that has been `high` high. -/
structure Holds (arena : Arena α) (capacity : Nat) (values : List α) (high : Nat) : Prop where
  stacked : arena.Stacks values
  reached : values.length ≤ high
  slabs : arena.slabCount = max 1 (high ⌈/⌉ capacity)
  same : arena.capacity = capacity

variable {arena arena' : Arena α} {capacity high : Nat} {values values' : List α}

/-- Slabs are neither added nor needed where the stack gets no higher. -/
theorem Holds.lower (holds : arena.Holds capacity values high) (stacked : arena'.Stacks values')
    (shorter : values'.length ≤ values.length) (count : arena'.slabCount = arena.slabCount)
    (same : arena'.capacity = arena.capacity) :
    arena'.Holds capacity values' (max high values'.length) := by
  have reached := holds.reached
  rw [Nat.max_eq_left (by omega)]
  exact ⟨stacked, by omega, count.trans holds.slabs, same.trans holds.same⟩

theorem Holds.alloc (holds : arena.Holds capacity values high) (value : α) :
    (arena.alloc value).Holds capacity (values ++ [value])
      (max high (values ++ [value]).length) := by
  have positive : 0 < capacity := holds.same ▸ holds.stacked.positive
  refine ⟨holds.stacked.alloc value, Nat.le_max_right _ _, ?_,
    (capacity_alloc arena value).trans holds.same⟩
  rw [slabCount_alloc holds.stacked, holds.slabs, holds.same, List.length_append, List.length_singleton,
    ceilDiv_max positive, max_assoc]

theorem Holds.drop (holds : arena.Holds capacity values high) {value : α}
    (top : values.getLast? = some value) :
    arena.dropTop.Holds capacity values.dropLast (max high values.dropLast.length) := by
  apply holds.lower (holds.stacked.dropTop top)
  · simp
  · simp [slabCount, Arena.dropTop]
  · rfl

theorem Holds.stay (holds : arena.Holds capacity values high) :
    arena.Holds capacity values (max high values.length) :=
  holds.lower holds.stacked (Nat.le_refl _) rfl rfl

theorem Op.step (op : Op α) (holds : arena.Holds capacity values high) :
    (op.run arena).1 = (op.onStack values).1 ∧
      (op.run arena).2.Holds capacity (op.onStack values).2
        (max high (op.onStack values).2.length) := by
  have top := holds.stacked.top?_eq
  have size := holds.stacked.size_eq
  cases op with
  | alloc value =>
      rw [Op.run, bump_eq, size]
      exact ⟨rfl, holds.alloc value⟩
  | pop =>
      simp only [Op.run, Op.onStack, Arena.pop, top]
      cases last : values.getLast? with
      | none =>
          have nothing : values = [] := List.getLast?_eq_none_iff.mp last
          subst nothing
          exact ⟨rfl, holds.stay⟩
      | some value => exact ⟨rfl, holds.drop last⟩
  | free id =>
      simp only [Op.run, Op.onStack]
      by_cases latest : topIndex values = some id
      · obtain ⟨value, last, freed⟩ := holds.stacked.free_top latest
        rw [freed, if_pos latest, last]
        exact ⟨rfl, holds.drop last⟩
      · rw [holds.stacked.free_other latest, if_neg latest]
        exact ⟨rfl, holds.stay⟩
  | get id =>
      simp only [Op.run, Op.onStack, Arena.get, holds.stacked.get?]
      by_cases live : id < values.length
      · rw [if_pos live, List.getElem?_eq_getElem live]
        exact ⟨rfl, holds.stay⟩
      · rw [if_neg live, List.getElem?_eq_none (Nat.le_of_not_lt live)]
        exact ⟨rfl, holds.stay⟩
  | modify id change =>
      simp only [Op.run, Op.onStack]
      by_cases live : id < values.length
      · obtain ⟨changed, modified, stacked, count⟩ := holds.stacked.modify live change
        rw [modified, if_pos live]
        refine ⟨rfl, holds.lower stacked (by simp) count ?_⟩
        simp only [Arena.modify, size, if_pos live] at modified
        cases modified
        rfl
      · rw [modify_of_dead (size ▸ live), if_neg live]
        exact ⟨rfl, holds.stay⟩
  | last =>
      exact ⟨by simp only [Op.run, Op.onStack, holds.stacked.last?_eq], holds.stay⟩
  | reset =>
      refine ⟨rfl, holds.lower holds.stacked.reset (Nat.zero_le _) ?_ rfl⟩
      simp [Op.run, slabCount, Arena.reset]

/-! ## Whole runs -/

theorem peak_ge (ops : List (Op α)) (values : List α) : values.length ≤ peak ops values := by
  cases ops with
  | nil => exact Nat.le_refl _
  | cons op rest => exact Nat.le_max_left _ _

theorem Holds.run (ops : List (Op α)) (holds : arena.Holds capacity values high) :
    (run ops arena).1 = (onStack ops values).1 ∧
      (Arena.run ops arena).2.Holds capacity (onStack ops values).2 (max high (peak ops values)) := by
  induction ops generalizing arena values high with
  | nil => exact ⟨rfl, holds.stay⟩
  | cons op rest ih =>
      obtain ⟨answer, after⟩ := op.step holds
      obtain ⟨answers, final⟩ := ih after
      have reached := holds.reached
      have later := peak_ge rest (op.onStack values).2
      have high' : max (max high (op.onStack values).2.length) (peak rest (op.onStack values).2) =
          max high (peak (op :: rest) values) := by
        rw [peak]
        omega
      rw [high'] at final
      exact ⟨by rw [Arena.run, onStack, answer, answers], final⟩

/-- A run from a fresh arena gives the answers of a stack.  The arena then holds as many values as
the stack, keeps its slabs packed, and has the slabs that the highest stack of the run needs. -/
theorem run_eq_onStack {capacity : Nat} {arena : Arena α} (opened : withCapacity capacity = .ok arena)
    (ops : List (Op α)) :
    (run ops arena).1 = (onStack ops []).1 ∧
      (run ops arena).2.size = (onStack ops []).2.length ∧
      (∀ slot, (run ops arena).2.liveBytes slot = (onStack ops []).2.length * slot) ∧
      (run ops arena).2.capacity = capacity ∧
      (run ops arena).2.current < (run ops arena).2.slabCount ∧ (run ops arena).2.Packed ∧
      (run ops arena).2.slabCount = max 1 (peak ops [] ⌈/⌉ capacity) := by
  have fresh : arena.Holds capacity [] 0 := by
    unfold withCapacity at opened
    by_cases none_fit : capacity = 0
    · rw [if_pos none_fit] at opened
      cases opened
    · rw [if_neg none_fit] at opened
      cases opened
      exact ⟨stacks_empty capacity (Nat.pos_of_ne_zero none_fit), Nat.le_refl 0, by simp [slabCount, empty],
        rfl⟩
  obtain ⟨answers, final⟩ := fresh.run ops
  rw [Nat.zero_max] at final
  have size := final.stacked.size_eq
  obtain ⟨current, packed⟩ := final.stacked.packed
  exact ⟨answers, size, fun slot => congrArg (· * slot) size, final.same, current, packed, final.slabs⟩

/-- Three values in slabs of two, a free out of order, a stale id, and a reset. -/
def reusing : List (Op Nat) :=
  [.alloc 7, .alloc 8, .alloc 9, .pop, .free 0, .pop, .get 1, .modify 0 (· + 1), .reset, .alloc 5,
    .last]

theorem run_eq_onStack_reusing :
    ∃ arena : Arena Nat, withCapacity 2 = .ok arena ∧
      (run reusing arena).1 = (onStack reusing []).1 ∧
      (run reusing arena).2.size = (onStack reusing []).2.length ∧
      (∀ slot, (run reusing arena).2.liveBytes slot = (onStack reusing []).2.length * slot) ∧
      (run reusing arena).2.capacity = 2 ∧
      (run reusing arena).2.current < (run reusing arena).2.slabCount ∧
      (run reusing arena).2.Packed ∧
      (run reusing arena).2.slabCount = max 1 (peak reusing [] ⌈/⌉ 2) :=
  ⟨empty 2, rfl, run_eq_onStack rfl reusing⟩

example : onStack reusing [] =
    ([.ok (.id (some 0)), .ok (.id (some 1)), .ok (.id (some 2)), .ok (.value (some 9)),
      .error (.freeOutOfOrder 0 (some 1)), .ok (.value (some 8)), .error (.staleId 1), .ok .done,
      .ok .done, .ok (.id (some 0)), .ok (.id (some 0))], [5]) := rfl

end PegForest.Arena
