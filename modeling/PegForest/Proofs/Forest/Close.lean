import PegForest.Forest.Close
import PegForest.Proofs.Forest.Represent

/-!
# Closing a node grows one tree

The roots after a watermark become the children of one new tree, without their own marks, and the
trees up to the watermark stay as they are.
-/

set_option autoImplicit false

namespace PegForest.Forest

open MarkedTree

variable {τ : Type}

theorem tell_children {forest : Forest τ} {front back : List (Node τ)} {base : Nat}
    {prev : Option NodeId} {trees : List (MarkedTree τ)} (id : NodeId) (steps : Nat)
    (enough : trees.length ≤ steps) (width : front.length = base)
    (stacked : forest.arena.Stacks (front ++ (layoutAll none prev none base trees ++ back))) :
    ∃ arena,
      updateSiblings (fun child => { child with parent := some id, bookmark := false }) none steps
        (firstOr none base trees) forest = .ok { forest with arena } ∧
      arena.Stacks (front ++ (layoutAll (some id) prev none base (trees.map unmark) ++ back)) := by
  refine updateSiblings_layoutAll _ unmark ?_ children_unmark trees steps base front back prev forest enough
    width (by simp) stacked
  intro prev next base tree
  cases tree
  rfl

theorem detach_first {forest : Forest τ} {front back : List (Node τ)} {base : Nat}
    {parent prev : Option NodeId} {trees : List (MarkedTree τ)} (width : front.length = base)
    (stacked : forest.arena.Stacks (front ++ (layoutAll parent prev none base trees ++ back))) :
    ∃ arena,
      (match firstOr none base trees with
        | none => Except.ok forest
        | some first => forest.update first fun child => { child with prev := none }) =
        .ok { forest with arena } ∧
      arena.Stacks (front ++ (layoutAll parent none none base trees ++ back)) := by
  cases place : firstOr none base trees with
  | none =>
      cases trees with
      | nil => exact ⟨forest.arena, rfl, by simpa using stacked⟩
      | cons tree rest => simp at place
  | some first => exact update_prev_of_first width stacked place none

theorem lastOr_of_firstOr (before : Option NodeId) (base : Nat) (trees : List (MarkedTree τ)) :
    ((firstOr none base trees).bind fun _ => lastOr before base trees) = lastOr none base trees := by
  cases trees with
  | nil => rfl
  | cons tree rest => simp [lastOr]

/-- Closing a node replaces the trees after the watermark by one tree over them. -/
theorem Represents.close {forest : Forest τ} {old new : List (MarkedTree τ)}
    (represents : forest.Represents (old ++ new)) (tag : Option τ) (start stop : Nat)
    (bookmark : Bool) :
    ∃ forest', forest.close (lastOr none 0 old) tag start stop bookmark = .ok forest' ∧
      forest'.Represents (old ++ [.node tag start stop bookmark (new.map unmark)]) ∧
      forest'.created = forest.created + 1 ∧ forest'.recycled = forest.recycled := by
  have size := represents.size_eq
  obtain ⟨nodes, headEq, tailEq⟩ := represents
  rw [layoutAll_append, Nat.zero_add] at nodes
  rw [firstOr_append, Nat.zero_add] at headEq
  rw [lastOr_append, Nat.zero_add] at tailEq
  rw [sizeAll_append] at size
  set base := sizeAll old with baseDef
  set closed : MarkedTree τ := .node tag start stop bookmark (new.map unmark)
  have below : closed.children = new.map unmark := rfl
  have closedId : closed.rootId base = forest.size := by
    rw [rootId, below, sizeAll_map children_unmark, size]
  have enough : new.length ≤ forest.size + 1 := by
    have := length_le_sizeAll new
    omega
  -- The node that is allocated is the root of the tree to be.
  have added : ({ tag, start, stop, bookmark
                  parent := none
                  prev := lastOr none 0 old
                  next := none
                  firstChild := firstOr none base new
                  lastChild := (firstOr none base new).bind fun _ => forest.tail } : Node τ) =
      rootNode none (lastOr none 0 old) none base closed := by
    rw [tailEq, lastOr_of_firstOr]
    simp only [rootNode, below, firstOr_map children_unmark, lastOr_map children_unmark]
    rfl
  have first := firstAfter_lastOr nodes headEq
  have allocated := nodes.alloc (rootNode none (lastOr none 0 old) none base closed)
  have grown := allocated.size_eq
  rw [List.append_assoc] at allocated
  obtain ⟨arena, head, tail, created, recycled⟩ := forest
  set id := Forest.size ⟨arena, head, tail, created, recycled⟩ with idDef
  set arena₀ := arena.alloc (rootNode none (lastOr none 0 old) none base closed) with arenaDef
  have grown' : arena₀.size = id + 1 := by
    rw [grown]
    simp [size, ← baseDef, Nat.add_assoc]
  obtain ⟨arena₁, told, stacks₁⟩ := tell_children id (id + 1) enough (by simp [baseDef])
    (show (Forest.arena ⟨arena₀, head, tail, created + 1, recycled⟩).Stacks _ from allocated)
  obtain ⟨arena₂, detached, stacks₂⟩ := detach_first (by simp [baseDef])
    (show (Forest.arena ⟨arena₁, head, tail, created + 1, recycled⟩).Stacks _ from stacks₁)
  obtain ⟨arena₃, linked, stacks₃⟩ := linkAfter_lastOr
    (show (Forest.arena ⟨arena₂, head, tail, created + 1, recycled⟩).Stacks _ from stacks₂) headEq
    (some id)
  rw [firstOr_map children_unmark] at detached
  refine ⟨⟨arena₃, firstOr (some id) 0 old, some id, created + 1, recycled⟩, ?_, ?_, rfl, rfl⟩
  · have steps : Forest.size ⟨arena₀, head, tail, created + 1, recycled⟩ = id + 1 := grown'
    simp only [Forest.close, first, Fault.ok_bind, added, add_eq, ← arenaDef, ← idDef, steps, told]
    cases place : firstOr none base new with
    | none =>
        rw [place] at detached
        simp only [Fault.pure_eq_ok, detached, Fault.ok_bind, linked]
    | some child =>
        rw [place] at detached
        simp only [detached, Fault.ok_bind, linked, Fault.pure_eq_ok]
  · refine ⟨?_, ?_, ?_⟩
    · rw [layoutAll_append, layoutAll_cons]
      simpa [closedId, below, ← baseDef] using stacks₃
    · simp [firstOr_append, closedId, ← baseDef]
    · simp [lastOr_concat, closedId, ← baseDef]

end PegForest.Forest
