import Mathlib.Data.List.Basic
import PegForest.Arena

/-!
# An arena is a stack

`Stacks arena values` says that an arena holds exactly `values`, the oldest first: the slabs before
the current one are full, the ones after it are empty, and the values are read off slab by slab, each
of them tagged with its place among the values.  Every operation of an arena is one operation on that
list, so nothing else needs to know of slabs and tags.
-/

set_option autoImplicit false

namespace PegForest.Arena

variable {α : Type}

theorem modify_append_left {i : Nat} {front : List α} (before : i < front.length) (change : α → α)
    (back : List α) : (front ++ back).modify i change = front.modify i change ++ back := by
  induction front generalizing i with
  | nil => simp at before
  | cons a rest ih =>
      cases i with
      | zero => simp
      | succ i => simpa using ih (by simpa using before)

theorem modify_append_right (i : Nat) (change : α → α) (front back : List α) :
    (front ++ back).modify (front.length + i) change = front ++ back.modify i change := by
  induction front with
  | nil => simp
  | cons a rest ih =>
      simp only [List.cons_append, List.length_cons, Nat.succ_add, List.modify_succ_cons, ih]

theorem modify_middle (change : α → α) (front : List α) (a : α) (back : List α) :
    (front ++ a :: back).modify front.length change = front ++ change a :: back := by
  simpa using modify_append_right 0 change front (a :: back)

def contents (full : List (Array α)) (slab : Array α) : List α :=
  full.flatMap Array.toList ++ slab.toList

/-- How the slabs of an arena stand: full ones, the current one, and empty ones to spare. -/
structure Arranged (arena : Arena α) (full : List (Array (Slot α))) (slab : Array (Slot α))
    (spare : Nat) : Prop where
  slabs : arena.slabs.toList = full ++ slab :: List.replicate spare #[]
  current : arena.current = full.length
  filled : ∀ s ∈ full, s.size = arena.capacity
  fits : slab.size ≤ arena.capacity
  positive : 0 < arena.capacity
  size : arena.size = (contents full slab).length

def Lists (arena : Arena α) (slots : List (Slot α)) : Prop :=
  ∃ full slab spare, Arranged arena full slab spare ∧ slots = contents full slab

def tagged (values : List α) : List (Slot α) :=
  values.mapIdx Slot.mk

/-- The arena holds `values`, the oldest first. -/
def Stacks (arena : Arena α) (values : List α) : Prop :=
  arena.Lists (tagged values)

theorem length_tagged (values : List α) : (tagged values).length = values.length :=
  List.length_mapIdx

theorem tagged_concat (values : List α) (value : α) :
    tagged (values ++ [value]) = tagged values ++ [⟨values.length, value⟩] :=
  List.mapIdx_concat

theorem getElem?_tagged (values : List α) (id : Nat) :
    (tagged values)[id]?.map Slot.value = values[id]? := by
  rw [tagged, List.getElem?_mapIdx, Option.map_map]
  exact Option.map_id_apply

theorem tagged_modify (values : List α) (id : Nat) (change : α → α) :
    tagged (values.modify id change) = (tagged values).modify id (Slot.map change) := by
  apply List.ext_getElem?
  intro place
  simp only [tagged, List.getElem?_mapIdx, List.getElem?_modify]
  split
  · cases values[place]? <;> rfl
  · cases values[place]? <;> rfl

theorem Stacks.size_eq {arena : Arena α} {values : List α} (stacked : arena.Stacks values) :
    arena.size = values.length := by
  obtain ⟨full, slab, spare, arranged, view⟩ := stacked
  rw [arranged.size, ← view, length_tagged]

theorem stacks_empty (capacity : Nat) (positive : 0 < capacity) :
    (empty capacity : Arena α).Stacks [] :=
  ⟨[], #[], 0, ⟨rfl, rfl, by simp, by simp, positive, rfl⟩, rfl⟩

/-! ## Adding a value -/

theorem Arranged.slab?_current {arena : Arena α} {full : List (Array (Slot α))}
    {slab : Array (Slot α)} {spare : Nat} (arranged : Arranged arena full slab spare) :
    arena.slabs[arena.current]? = some slab := by
  rw [← Array.getElem?_toList, arranged.slabs, arranged.current]
  simp

theorem Arranged.slabs_size {arena : Arena α} {full : List (Array (Slot α))}
    {slab : Array (Slot α)} {spare : Nat} (arranged : Arranged arena full slab spare) :
    arena.slabs.size = full.length + (spare + 1) := by
  rw [← Array.length_toList, arranged.slabs]
  simp

theorem Arranged.makeRoom {arena : Arena α} {full : List (Array (Slot α))}
    {slab : Array (Slot α)} {spare : Nat} (arranged : Arranged arena full slab spare) :
    ∃ full' slab' spare', Arranged arena.makeRoom full' slab' spare' ∧
      slab'.size < arena.capacity ∧ contents full' slab' = contents full slab ∧
      arena.makeRoom.capacity = arena.capacity := by
  have found := arranged.slab?_current
  have count := arranged.slabs_size
  obtain ⟨slabs, current, capacity, size⟩ := arena
  obtain ⟨shape, place, filled, fits, positive, size⟩ := arranged
  simp only at shape place filled fits positive size found count
  simp only [Arena.makeRoom, found, Option.map_some, Option.getD_some]
  by_cases packed : slab.size = capacity
  · have filled' : ∀ s ∈ full ++ [slab], s.size = capacity := by
      intro s member
      rcases List.mem_append.mp member with old | new
      · exact filled s old
      · rw [List.mem_singleton.mp new]
        exact packed
    have kept : contents (full ++ [slab]) #[] = contents full slab := by simp [contents]
    rw [if_pos packed]
    -- A full slab is followed by an empty one that is still there, or by a new one.
    cases spare with
    | zero =>
        rw [if_pos (by omega)]
        refine ⟨full ++ [slab], #[], 0, ⟨?_, ?_, filled', by simp, positive, ?_⟩, ?_, kept, rfl⟩
        · simp [shape]
        · simp [place]
        · rw [kept]
          exact size
        · exact positive
    | succ spare =>
        rw [if_neg (by omega)]
        refine ⟨full ++ [slab], #[], spare, ⟨?_, ?_, filled', by simp, positive, ?_⟩, ?_, kept, rfl⟩
        · simp [shape, List.replicate_succ]
        · simp [place]
        · rw [kept]
          exact size
        · exact positive
  · rw [if_neg packed]
    exact ⟨full, slab, spare, ⟨shape, place, filled, fits, positive, size⟩,
      show slab.size < capacity by omega, rfl, rfl⟩

theorem Stacks.alloc {arena : Arena α} {values : List α} (stacked : arena.Stacks values)
    (value : α) : (arena.alloc value).Stacks (values ++ [value]) := by
  obtain ⟨full, slab, spare, arranged, view⟩ := stacked
  obtain ⟨full', slab', spare', arranged', room, kept, sameCapacity⟩ := arranged.makeRoom
  rw [← kept] at view
  rw [← sameCapacity] at room
  simp only [Arena.alloc, bump]
  generalize arena.makeRoom = roomy at *
  obtain ⟨slabs, current, capacity, size⟩ := roomy
  obtain ⟨shape, place, filled, fits, positive, sized⟩ := arranged'
  simp only at shape place filled fits positive sized room
  have tag : size = values.length := by rw [sized, ← view, length_tagged]
  refine ⟨full', slab'.push ⟨size, value⟩, spare', ⟨?_, place, filled, ?_, positive, ?_⟩, ?_⟩
  · simp [shape, place, modify_middle]
  · simpa using Nat.succ_le_of_lt room
  · simp [sized, contents]
    omega
  · rw [tagged_concat, view, tag]
    simp [contents]

/-! ## Taking the last value off -/

theorem Arranged.drop {arena : Arena α} {full : List (Array (Slot α))}
    {slab : Array (Slot α)} {spare : Nat}
    (arranged : Arranged { arena with current := full.length } full slab spare)
    (place : arena.topSlab = full.length) (occupied : slab ≠ #[]) :
    ∃ slot, arena.top? = some slot ∧ contents full slab = contents full slab.pop ++ [slot] ∧
      Arranged arena.dropTop full slab.pop spare := by
  obtain ⟨shape, -, filled, fits, positive, size⟩ := arranged
  simp only at shape filled fits positive size
  have nonzero : slab.size ≠ 0 := by simpa using occupied
  obtain ⟨init, slot, rfl⟩ := Array.eq_push_of_size_ne_zero nonzero
  have found : arena.slabs[full.length]? = some (init.push slot) := by
    rw [← Array.getElem?_toList, shape]
    simp
  have split : contents full (init.push slot) = contents full init ++ [slot] := by
    simp [contents]
  refine ⟨slot, ?_, by simpa using split, ?_⟩
  · simp [top?, place, found]
  · refine ⟨?_, ?_, filled, ?_, positive, ?_⟩
    · simp [dropTop, place, shape, modify_middle]
    · simp [dropTop, place]
    · simp only [Array.size_push] at fits
      simp only [Array.pop_push]
      exact Nat.le_of_succ_le fits
    · simp [dropTop, size, split]

/-- The top slab is the current one or, where that is empty, the full one before it. -/
theorem Arranged.top {arena : Arena α} {full : List (Array (Slot α))}
    {slab : Array (Slot α)} {spare : Nat} (arranged : Arranged arena full slab spare)
    (occupied : contents full slab ≠ []) :
    ∃ slot slots, contents full slab = slots ++ [slot] ∧ arena.top? = some slot ∧
      arena.dropTop.Lists slots := by
  have found := arranged.slab?_current
  have fillCurrent : arena.fill arena.current = slab.size := by simp [fill, found]
  by_cases vacant : slab = #[]
  · subst vacant
    rcases List.eq_nil_or_concat' full with rfl | ⟨front, s, rfl⟩
    · simp [contents] at occupied
    · have packed : s.size = arena.capacity := arranged.filled s (by simp)
      have moved : contents (front ++ [s]) #[] = contents front s := by simp [contents]
      have shifted : Arranged { arena with current := front.length } front s (spare + 1) := by
        refine ⟨?_, rfl, ?_, Nat.le_of_eq packed, arranged.positive, ?_⟩
        · simpa [List.replicate_succ] using arranged.slabs
        · intro t member
          exact arranged.filled t (by simp [member])
        · simpa [moved] using arranged.size
      have place : arena.topSlab = front.length := by
        rw [topSlab, fillCurrent, arranged.current]
        simp
      have full : s ≠ #[] := by
        intro absent
        have := arranged.positive
        simp [absent] at packed
        omega
      obtain ⟨slot, top, view, dropped⟩ := shifted.drop place full
      exact ⟨slot, _, moved.trans view, top, _, _, _, dropped, rfl⟩
  · have place : arena.topSlab = full.length := by
      rw [topSlab, fillCurrent, arranged.current]
      simp [vacant]
    have same : Arranged { arena with current := full.length } full slab spare := by
      rw [← arranged.current]
      exact arranged
    obtain ⟨slot, top, view, dropped⟩ := same.drop place vacant
    exact ⟨slot, _, view, top, _, _, _, dropped, rfl⟩

theorem Stacks.top {arena : Arena α} {values : List α} {value : α}
    (stacked : arena.Stacks (values ++ [value])) :
    arena.top? = some ⟨values.length, value⟩ ∧ arena.dropTop.Stacks values := by
  obtain ⟨full, slab, spare, arranged, view⟩ := stacked
  rw [tagged_concat] at view
  obtain ⟨last, front, split, top, dropped⟩ := arranged.top (by rw [← view]; simp)
  rw [split] at view
  obtain ⟨rfl, same⟩ := List.append_inj' view rfl
  rw [List.singleton_inj.mp same]
  exact ⟨top, dropped⟩

theorem Stacks.free {arena : Arena α} {values : List α} {value : α}
    (stacked : arena.Stacks (values ++ [value])) :
    ∃ rest, arena.free values.length = .ok (value, rest) ∧ rest.Stacks values := by
  obtain ⟨top, dropped⟩ := stacked.top
  exact ⟨arena.dropTop, by simp [Arena.free, top], dropped⟩

/-! ## Looking a value up and changing it -/

/-- Cutting a list into pieces of one length turns an index into a piece and a place in it. -/
theorem getElem?_contents (capacity : Nat) (positive : 0 < capacity) (slab : Array α)
    (spare : List (Array α)) (fits : slab.size ≤ capacity) :
    ∀ (full : List (Array α)) (i : Nat), (∀ s ∈ full, s.size = capacity) →
      i < (contents full slab).length →
      ((full ++ slab :: spare)[i / capacity]?.bind fun s => s[i % capacity]?) =
        (contents full slab)[i]? := by
  intro full
  induction full with
  | nil =>
      intro i _ inside
      have small : i < capacity := by
        simp [contents] at inside
        omega
      simp [contents, Nat.div_eq_of_lt small, Nat.mod_eq_of_lt small]
  | cons s rest ih =>
      intro i filled inside
      have width : s.size = capacity := filled s (by simp)
      have view : contents (s :: rest) slab = s.toList ++ contents rest slab := by simp [contents]
      rw [view] at inside ⊢
      by_cases first : i < capacity
      · have here : (s.toList ++ contents rest slab)[i]? = s.toList[i]? :=
          List.getElem?_append_left (by simpa [width] using first)
        rw [Nat.div_eq_of_lt first, Nat.mod_eq_of_lt first, here]
        simp
      · have later : capacity ≤ i := Nat.le_of_not_lt first
        have there : (s.toList ++ contents rest slab)[i]? = (contents rest slab)[i - capacity]? := by
          rw [List.getElem?_append_right (by simpa [width] using later)]
          simp [width]
        have inside' : i - capacity < (contents rest slab).length := by
          simp [width] at inside
          omega
        rw [Nat.div_eq_sub_div positive later, Nat.mod_eq_sub_mod later, there]
        exact ih (i - capacity) (fun t member => filled t (by simp [member])) inside'

theorem Stacks.get? {arena : Arena α} {values : List α} (stacked : arena.Stacks values) (id : Nat) :
    arena.get? id = values[id]? := by
  obtain ⟨full, slab, spare, arranged, view⟩ := stacked
  rw [← getElem?_tagged, view]
  by_cases live : id < arena.size
  · have looked := getElem?_contents arena.capacity arranged.positive slab
      (List.replicate spare #[]) arranged.fits full id arranged.filled (by rwa [← arranged.size])
    rw [← arranged.slabs] at looked
    rw [← looked]
    simp [Arena.get?, live]
  · have beyond : (contents full slab)[id]? = none := by
      rw [List.getElem?_eq_none_iff, ← arranged.size]
      omega
    simp [Arena.get?, live, beyond]

theorem Stacks.get {arena : Arena α} {front back : List α} {value : α}
    (stacked : arena.Stacks (front ++ value :: back)) : arena.get front.length = .ok value := by
  simp [Arena.get, stacked.get?]

theorem Stacks.get_eq_ok {arena : Arena α} {values : List α} (stacked : arena.Stacks values)
    {id : Nat} {value : α} : arena.get id = .ok value ↔ values[id]? = some value := by
  rw [Arena.get, stacked.get?]
  cases values[id]? <;> simp

/-- Changing one value changes one slab and keeps the sizes of all. -/
theorem modify_contents (capacity : Nat) (positive : 0 < capacity) (slab : Array α)
    (spare : List (Array α)) (fits : slab.size ≤ capacity) (change : α → α) :
    ∀ (full : List (Array α)) (i : Nat), (∀ s ∈ full, s.size = capacity) →
      i < (contents full slab).length →
      ∃ full' slab', (full ++ slab :: spare).modify (i / capacity)
          (fun s => s.modify (i % capacity) change) = full' ++ slab' :: spare ∧
        full'.length = full.length ∧ (∀ s ∈ full', s.size = capacity) ∧ slab'.size = slab.size ∧
        contents full' slab' = (contents full slab).modify i change := by
  intro full
  induction full with
  | nil =>
      intro i _ inside
      have small : i < capacity := by
        simp [contents] at inside
        omega
      refine ⟨[], slab.modify i change, ?_, rfl, by simp, by simp, by simp [contents]⟩
      simp [Nat.div_eq_of_lt small, Nat.mod_eq_of_lt small]
  | cons s rest ih =>
      intro i filled inside
      have width : s.size = capacity := filled s (by simp)
      have filledRest : ∀ t ∈ rest, t.size = capacity := fun t member => filled t (by simp [member])
      have view : ∀ (s : Array α) (rest : List (Array α)) (slab : Array α),
          contents (s :: rest) slab = s.toList ++ contents rest slab := by simp [contents]
      rw [view] at inside ⊢
      -- Every full slab takes `capacity` indices, and dividing by the capacity counts them off.
      by_cases first : i < capacity
      · refine ⟨s.modify i change :: rest, slab, ?_, by simp, ?_, rfl, ?_⟩
        · simp [Nat.div_eq_of_lt first, Nat.mod_eq_of_lt first]
        · simpa [width] using filledRest
        · rw [view, modify_append_left (by simpa [width] using first)]
          simp
      · have later : capacity ≤ i := Nat.le_of_not_lt first
        have inside' : i - capacity < (contents rest slab).length := by
          simp [width] at inside
          omega
        obtain ⟨full', slab', shape, count, filled', size, changed⟩ :=
          ih (i - capacity) filledRest inside'
        refine ⟨s :: full', slab', ?_, by simp [count], ?_, size, ?_⟩
        · rw [Nat.div_eq_sub_div positive later, Nat.mod_eq_sub_mod later]
          simpa using shape
        · simpa [width] using filled'
        · have place : i = s.toList.length + (i - capacity) := by
            simp [width]
            omega
          rw [view, changed, place, modify_append_right, ← place]

theorem modify_of_dead {arena : Arena α} {id : Nat} {change : α → α} (dead : ¬id < arena.size) :
    arena.modify id change = .error (.staleId id) := by
  unfold Arena.modify
  exact if_neg dead

theorem Stacks.modify {arena : Arena α} {values : List α} (stacked : arena.Stacks values) {id : Nat}
    (live : id < values.length) (change : α → α) :
    ∃ arena', arena.modify id change = .ok arena' ∧ arena'.Stacks (values.modify id change) ∧
      arena'.slabCount = arena.slabCount := by
  rw [← length_tagged] at live
  unfold Stacks
  rw [tagged_modify]
  obtain ⟨full, slab, spare, arranged, view⟩ := stacked
  rw [view] at live ⊢
  obtain ⟨slabs, current, capacity, size⟩ := arena
  obtain ⟨shape, place, filled, fits, positive, sized⟩ := arranged
  simp only at shape place filled fits positive sized
  obtain ⟨full', slab', shape', length', filled', size', changed⟩ :=
    modify_contents capacity positive slab (List.replicate spare #[]) fits (Slot.map change) full id
      filled live
  have alive : id < size := by omega
  refine ⟨_, by simp only [Arena.modify, if_pos alive]; rfl, ?_, by simp [slabCount]⟩
  refine ⟨full', slab', spare, ⟨?_, ?_, filled', ?_, positive, ?_⟩, changed.symm⟩
  · simpa [shape] using shape'
  · simp [place, length']
  · simpa [size'] using fits
  · simp [sized, changed]

theorem Stacks.reset {arena : Arena α} {values : List α} (stacked : arena.Stacks values) :
    arena.reset.Stacks [] := by
  obtain ⟨full, slab, spare, arranged, -⟩ := stacked
  obtain ⟨slabs, current, capacity, size⟩ := arena
  obtain ⟨shape, place, filled, fits, positive, sized⟩ := arranged
  simp only at shape place positive
  have emptied : (slabs.mapIdx fun i s => if i ≤ current then #[] else s).toList =
      List.replicate (full.length + spare + 1) #[] := by
    rw [Array.toList_mapIdx, shape, List.eq_replicate_iff]
    refine ⟨by simp; omega, ?_⟩
    intro s member
    obtain ⟨i, inside, rfl⟩ := List.mem_mapIdx.mp member
    by_cases early : i ≤ current
    · simp [early]
    · obtain ⟨k, rfl⟩ : ∃ k, i = full.length + (k + 1) := ⟨i - full.length - 1, by omega⟩
      simp [place]
  refine ⟨[], #[], full.length + spare, ⟨?_, rfl, by simp, by simp, positive, rfl⟩, rfl⟩
  simpa [Arena.reset, List.replicate_succ] using emptied

end PegForest.Arena
