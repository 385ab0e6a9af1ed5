import PegForest.Proofs.Arena.Run
import PegForest.Proofs.Fault

/-!
# Arenas that hold the same values

One arena is the image of another when it holds the images of the values that the other one holds.
Nothing is said of slabs: the arenas may have been used differently before and may have slabs of
different capacities.  Every operation keeps them images of each other, and it stops on one of them
as it does on the other.
-/

set_option autoImplicit false

namespace PegForest.Arena

variable {α β : Type} {f : β → α} {arena : Arena α} {arena' : Arena β}

/-- The arena holds the images of what the other arena holds. -/
def Images (f : β → α) (arena : Arena α) (arena' : Arena β) : Prop :=
  ∃ values, arena.Stacks (values.map f) ∧ arena'.Stacks values

theorem images_nil (stacked : arena.Stacks []) (stacked' : arena'.Stacks []) :
    arena.Images f arena' :=
  ⟨[], stacked, stacked'⟩

theorem Images.size_eq (images : arena.Images f arena') : arena.size = arena'.size := by
  obtain ⟨values, stacked, stacked'⟩ := images
  rw [stacked.size_eq, stacked'.size_eq, List.length_map]

theorem Images.alloc (images : arena.Images f arena') (value : β) :
    (arena.alloc (f value)).Images f (arena'.alloc value) := by
  obtain ⟨values, stacked, stacked'⟩ := images
  refine ⟨values ++ [value], ?_, stacked'.alloc value⟩
  rw [List.map_append]
  exact stacked.alloc (f value)

theorem Images.get (images : arena.Images f arena') (id : Nat) :
    Agree (fun a b => a = f b) (arena.get id) (arena'.get id) := by
  obtain ⟨values, stacked, stacked'⟩ := images
  rw [Arena.get, Arena.get, stacked.get?, stacked'.get?, List.getElem?_map]
  cases values[id]? with
  | none => exact .error _
  | some value => exact .ok rfl

theorem Images.modify (images : arena.Images f arena') (id : Nat) {change : α → α}
    {change' : β → β} (changes : ∀ b, change (f b) = f (change' b)) :
    Agree (Images f) (arena.modify id change) (arena'.modify id change') := by
  have sizes := images.size_eq
  obtain ⟨values, stacked, stacked'⟩ := images
  have size' := stacked'.size_eq
  by_cases live : id < values.length
  · have live' : id < (values.map f).length := by rwa [List.length_map]
    obtain ⟨after, changed, later, -⟩ := stacked.modify live' change
    obtain ⟨after', changed', later', -⟩ := stacked'.modify live change'
    rw [changed, changed']
    refine .ok ⟨values.modify id change', ?_, later'⟩
    have mapped : (values.modify id change').map f = (values.map f).modify id change := by
      apply List.ext_getElem?
      intro place
      simp only [List.getElem?_map, List.getElem?_modify]
      split
      · cases values[place]? with
        | none => rfl
        | some value => exact congrArg some (changes value).symm
      · cases values[place]? <;> rfl
    rwa [mapped]
  · rw [modify_of_dead (by omega), modify_of_dead (by omega)]
    exact .error _

theorem topIndex_map (values : List β) : topIndex (values.map f) = topIndex values := by
  rw [topIndex, topIndex, List.getLast?_map, List.length_map, Option.map_map]
  rfl

theorem Images.last?_eq (images : arena.Images f arena') : arena.last? = arena'.last? := by
  obtain ⟨values, stacked, stacked'⟩ := images
  rw [stacked.last?_eq, stacked'.last?_eq, topIndex_map]

theorem Images.free (images : arena.Images f arena') (id : Nat) :
    Agree (fun freed freed' => freed.1 = f freed'.1 ∧ freed.2.Images f freed'.2) (arena.free id)
      (arena'.free id) := by
  obtain ⟨values, stacked, stacked'⟩ := images
  by_cases latest : topIndex values = some id
  · obtain ⟨value', top', freed'⟩ := stacked'.free_top latest
    obtain ⟨value, top, freed⟩ := stacked.free_top ((topIndex_map values).trans latest)
    rw [freed, freed']
    have dropped := stacked.dropTop top
    rw [← List.map_dropLast] at dropped
    rw [List.getLast?_map, top'] at top
    exact .ok ⟨(Option.some.inj top).symm, values.dropLast, dropped, stacked'.dropTop top'⟩
  · rw [stacked'.free_other latest, stacked.free_other (by rwa [topIndex_map]), topIndex_map]
    exact .error _

theorem Images.reset (images : arena.Images f arena') : arena.reset.Images f arena'.reset := by
  obtain ⟨values, stacked, stacked'⟩ := images
  exact images_nil stacked.reset stacked'.reset

end PegForest.Arena
