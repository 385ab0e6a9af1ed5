import PegForest.Proofs.Context.Track

/-!
# Rewinding where nothing was added

A context that tracks what another one tracks has the same checkpoint.  A rewind to that checkpoint
has nothing to take back, and then it gives back the very same context: no root is dropped, the last
root had no root after it already, no node is counted as recycled, and nothing is logged.  So one
rewind after another is as good as the first alone.
-/

set_option autoImplicit false

namespace PegForest

open MarkedTree

/-! ## Changes that change nothing -/

theorem Arena.slabs_modify_fixed {β : Type} {values : Array β} {i : Nat} {change : β → β}
    (fixed : ∀ value, values[i]? = some value → change value = value) :
    values.modify i change = values := by
  refine Array.ext_getElem? fun j => ?_
  rw [Array.getElem?_modify]
  split
  · next here =>
      subst here
      cases found : values[i]? with
      | none => rfl
      | some value => rw [Option.map_some, fixed value found]
  · rfl

theorem Arena.modify_fixed {α : Type} {arena : Arena α} {id : Nat} {value : α} {change : α → α}
    (live : arena.get id = .ok value) (fixed : change value = value) :
    arena.modify id change = .ok arena := by
  obtain ⟨slabs, current, capacity, size⟩ := arena
  simp only [Arena.get, Arena.get?] at live
  by_cases inside : id < size
  · simp only [if_pos inside] at live
    have same : slabs.modify (id / capacity) (·.modify (id % capacity) (Slot.map change)) =
        slabs := by
      refine slabs_modify_fixed fun slab found => slabs_modify_fixed fun slot found' => ?_
      rw [found, Option.bind_some, found'] at live
      cases live
      exact congrArg (Slot.mk slot.tag) fixed
    simp only [Arena.modify, if_pos inside, same]
  · simp only [if_neg inside] at live
    cases live

namespace Forest

variable {τ : Type} {forest : Forest τ} {trees : List (MarkedTree τ)}

theorem Represents.linkAfter_last (represents : forest.Represents trees) :
    forest.linkAfter forest.tail none = .ok forest := by
  rw [represents.tail]
  rcases List.eq_nil_or_concat' trees with rfl | ⟨init, tree, rfl⟩
  · have unset : forest.head = none := represents.head
    obtain ⟨arena, head, tail, created, recycled⟩ := forest
    simp only at unset
    subst unset
    rfl
  · have found := represents.node_root
    rw [lastOr_concat, Nat.zero_add]
    have kept : forest.arena.modify (tree.rootId (sizeAll init))
        (fun node => { node with next := none }) = .ok forest.arena :=
      Arena.modify_fixed found rfl
    obtain ⟨arena, head, tail, created, recycled⟩ := forest
    simp only at kept
    simp only [linkAfter, update, kept, Fault.ok_bind, Fault.pure_eq_ok]

theorem Represents.recycleTo_last (represents : forest.Represents trees) :
    forest.recycleTo forest.tail = .ok forest := by
  simp only [Forest.recycleTo, dropRoots_met rfl, Fault.ok_bind, represents.linkAfter_last,
    Fault.pure_eq_ok, Nat.sub_self, Nat.add_zero]

end Forest

namespace Context

variable {τ : Type} {builds : Bool} {ctx ctx' : Context τ} {refs : List Backref}
  {trees : List (MarkedTree τ)}

/-- The checkpoint of a context is decided by what the context tracks. -/
theorem Tracks.checkpoint_eq (tracks : ctx.Tracks refs trees builds)
    (tracks' : ctx'.Tracks refs trees builds) : ctx.checkpoint = ctx'.checkpoint := by
  have mark : ctx.refs = ctx'.refs := tracks.refs_eq.trans tracks'.refs_eq.symm
  have last : ctx.watermark = ctx'.watermark := by
    cases tracks with
    | tree represents sound =>
        cases tracks' with
        | tree represents' sound' => exact represents.tail.trans represents'.tail.symm
    | text sound =>
        cases tracks' with
        | text sound' => rfl
  simp only [checkpoint, mark, last]

theorem Tracks.rewind_self (tracks : ctx.Tracks refs trees builds) :
    ctx.rewind ctx.checkpoint = .ok ctx := by
  cases tracks with
  | tree represents sound =>
      have kept := represents.recycleTo_last
      simp [checkpoint, Context.watermark, Context.rewind, kept, Backrefs.mark]
  | text sound => simp [checkpoint, Context.rewind, Backrefs.mark]

/-- A rewind to an earlier checkpoint, when all that was added since is gone already. -/
theorem Tracks.rewind_same (tracks : ctx.Tracks refs trees builds)
    (tracks' : ctx'.Tracks refs trees builds) : ctx'.rewind ctx.checkpoint = .ok ctx' := by
  rw [tracks.checkpoint_eq tracks']
  exact tracks'.rewind_self

end Context

end PegForest
