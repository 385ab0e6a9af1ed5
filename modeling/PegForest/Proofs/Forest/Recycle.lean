import Mathlib.Data.List.Induction
import PegForest.Forest.Recycle
import PegForest.Proofs.Forest.Represent

/-!
# Taking trees back

Freeing a tree from its root down, last child first, meets its nodes from the last written to the
first, so every node that is freed is the most recent one.  Taking back the roots after a watermark
leaves the trees up to it exactly as they were written, and it is refused only for a watermark that
names no root.
-/

set_option autoImplicit false

namespace PegForest.Forest

open MarkedTree

variable {τ : Type}

theorem Represents.reset {forest : Forest τ} {trees : List (MarkedTree τ)}
    (represents : forest.Represents trees) : forest.reset.Represents [] := by
  obtain ⟨nodes, -, -⟩ := represents
  obtain ⟨arena, head, tail, created, recycled⟩ := forest
  exact ⟨by simpa [Forest.reset] using nodes.reset, rfl, rfl⟩

/-! ## Freeing trees -/

theorem release_layoutAll (head tail : Option NodeId) (created recycled : Nat)
    {front : List (Node τ)} {parent prev next : Option NodeId} {arena : Arena (Node τ)}
    (trees : List (MarkedTree τ)) (steps base : Nat) (pending : List NodeId)
    (width : front.length = base)
    (stacked : arena.Stacks (front ++ layoutAll parent prev next base trees)) :
    ∃ arena', arena'.Stacks front ∧
      release (steps + sizeAll trees) ((rootIds base trees).reverse ++ pending)
          ⟨arena, head, tail, created, recycled⟩ =
        release steps pending ⟨arena', head, tail, created, recycled⟩ := by
  induction trees using trees_induction generalizing parent prev next arena steps base pending front with
  | nil => exact ⟨arena, by simpa using stacked, by simp [rootIds]⟩
  | cons tree rest inner outer =>
      rw [layoutAll, ← List.append_assoc] at stacked
      obtain ⟨arena₁, stacks₁, released₁⟩ := outer (steps + tree.size) (base + tree.size)
        (tree.rootId base :: pending) (by simp [width, length_layout]) stacked
      rw [layout_eq, ← List.append_assoc] at stacks₁
      have place : (front ++ layoutAll (some (tree.rootId base)) none none base tree.children).length
          = tree.rootId base := by
        simp [rootId, width]
      -- the root is freed, and its children take its place among what is pending
      obtain ⟨arena₂, freed, stacks₂⟩ := stacks₁.free
      rw [place] at freed
      have enough : tree.children.length ≤ arena₂.size := by
        rw [stacks₂.size_eq, place, rootId]
        have := length_le_sizeAll tree.children
        omega
      have shows : Shows ⟨arena₂, head, tail, created, recycled⟩ base
          (layoutAll (some (tree.rootId base)) none none base tree.children) :=
        shows_of_stacks stacks₂ width
      have below := siblingsFrom_of_shows enough shows
      obtain ⟨arena₃, stacks₃, released₃⟩ := inner steps base pending width stacks₂
      have released₂ : release (steps + tree.size) (tree.rootId base :: pending)
            ⟨arena₁, head, tail, created, recycled⟩ =
          release steps pending ⟨arena₃, head, tail, created, recycled⟩ := by
        rw [size_eq, ← Nat.add_assoc]
        simp only [release, freed, Fault.ok_bind, Forest.size, rootNode, below]
        exact released₃
      refine ⟨arena₃, stacks₃, ?_⟩
      rw [← released₂, ← released₁]
      simp [rootIds, Nat.add_assoc]

/-! ## Going back to a watermark -/

/-- A list of trees is cut after the root that a watermark names. -/
def CutAt (watermark : Option NodeId) (trees keep drop : List (MarkedTree τ)) : Prop :=
  trees = keep ++ drop ∧ lastOr none 0 keep = watermark

theorem release_last {init : List (MarkedTree τ)} {tree : MarkedTree τ} {next : Option NodeId}
    {arena : Arena (Node τ)} (head tail : Option NodeId) (created recycled : Nat)
    (stacked : arena.Stacks (layoutAll none none next 0 (init ++ [tree]))) :
    ∃ arena', arena'.Stacks (layoutAll none none (some (tree.rootId (sizeAll init))) 0 init) ∧
      release (sizeAll init + tree.size) [tree.rootId (sizeAll init)]
          ⟨arena, head, tail, created, recycled⟩ =
        .ok ⟨arena', head, tail, created, recycled⟩ := by
  rw [layoutAll_append, Nat.zero_add, firstOr_cons] at stacked
  obtain ⟨arena', stacked', released⟩ := release_layoutAll head tail created recycled [tree]
    (sizeAll init) (sizeAll init) [] (by simp) stacked
  refine ⟨arena', stacked', ?_⟩
  rw [sizeAll_cons, sizeAll_nil, Nat.add_zero] at released
  exact released.trans (by cases sizeAll init <;> rfl)

theorem dropRoots_met {watermark : Option NodeId} {forest : Forest τ}
    (met : forest.tail = watermark) (steps : Nat) :
    dropRoots watermark steps forest = .ok forest := by
  rw [dropRoots.eq_def]
  simp [met]

theorem dropRoots_step {watermark : Option NodeId} {forest : Forest τ} {top : NodeId}
    (last : forest.tail = some top) (apart : some top ≠ watermark) (steps : Nat) :
    dropRoots watermark (steps + 1) forest = (do
      let node ← forest.node top
      let forest ← release forest.size [top] { forest with tail := node.prev }
      dropRoots watermark steps forest) := by
  rw [dropRoots.eq_def]
  simp [last, apart]

theorem dropRoots_lost {mark : NodeId} {forest : Forest τ} (last : forest.tail = none)
    (steps : Nat) : dropRoots (some mark) steps forest = .error (.notTopLevel mark) := by
  rw [dropRoots.eq_def]
  simp [last]

/-- Roots are freed from the last one on until the watermark is met, and it is met unless it names
no root. -/
theorem dropRoots_layoutAll (watermark head : Option NodeId) (created recycled : Nat)
    (trees : List (MarkedTree τ)) :
    ∀ (steps : Nat) (next : Option NodeId) (arena : Arena (Node τ)), trees.length ≤ steps →
      arena.Stacks (layoutAll none none next 0 trees) →
      (∃ keep drop arena', CutAt watermark trees keep drop ∧
        arena'.Stacks (layoutAll none none (firstOr next (sizeAll keep) drop) 0 keep) ∧
        dropRoots watermark steps ⟨arena, head, lastOr none 0 trees, created, recycled⟩ =
          .ok ⟨arena', head, watermark, created, recycled⟩) ∨
      (∃ mark, watermark = some mark ∧ mark ∉ rootIds 0 trees ∧
        dropRoots watermark steps ⟨arena, head, lastOr none 0 trees, created, recycled⟩ =
          .error (.notTopLevel mark)) := by
  induction trees using List.reverseRecOn with
  | nil =>
      intro steps next arena _ stacked
      cases watermark with
      | none =>
          refine .inl ⟨[], [], arena, ⟨rfl, rfl⟩, by simpa using stacked, ?_⟩
          apply dropRoots_met
          rfl
      | some mark =>
          exact .inr ⟨mark, rfl, by simp [rootIds], dropRoots_lost rfl steps⟩
  | append_singleton init tree ih =>
      intro steps next arena enough stacked
      have lastEq : lastOr none 0 (init ++ [tree]) = some (tree.rootId (sizeAll init)) := by
        rw [lastOr_concat, Nat.zero_add]
      rw [lastEq]
      -- The last root is the watermark, or it is freed and the roots before it are left.
      by_cases met : some (tree.rootId (sizeAll init)) = watermark
      · refine .inl ⟨init ++ [tree], [], arena, ⟨by simp, lastEq.trans met⟩, stacked, ?_⟩
        rw [met]
        apply dropRoots_met
        rfl
      · obtain ⟨steps, rfl⟩ : ∃ n, steps = n + 1 :=
          ⟨steps - 1, by simp only [List.length_append, List.length_singleton] at enough; omega⟩
        obtain ⟨arena', stacked', released⟩ := release_last head (lastOr none 0 init) created recycled
          stacked
        have found : (Forest.mk arena head (some (tree.rootId (sizeAll init))) created
            recycled).node (tree.rootId (sizeAll init)) =
            .ok (rootNode none (lastOr none 0 init) next (sizeAll init) tree) := by
          rw [layoutAll_concat, Nat.zero_add] at stacked
          exact node_of_stacks stacked (by simp [rootId])
        have size : Forest.size (Forest.mk arena head (some (tree.rootId (sizeAll init))) created
            recycled) = sizeAll init + tree.size := by
          rw [Forest.size, stacked.size_eq]
          simp
        have step : dropRoots watermark (steps + 1)
            ⟨arena, head, some (tree.rootId (sizeAll init)), created, recycled⟩ =
            dropRoots watermark steps ⟨arena', head, lastOr none 0 init, created, recycled⟩ := by
          rw [dropRoots_step rfl met, found, Fault.ok_bind, size]
          simp only [rootNode, released, Fault.ok_bind]
        rcases ih steps _ arena' (by simpa using enough) stacked' with
          ⟨keep, drop, arena'', ⟨cut, last⟩, stacked'', dropped⟩ | ⟨mark, named, absent, refused⟩
        · refine .inl ⟨keep, drop ++ [tree], arena'', ⟨by simp [cut], last⟩, ?_, step.trans dropped⟩
          rw [firstOr_append, firstOr_cons]
          simpa [cut] using stacked''
        · refine .inr ⟨mark, named, ?_, step.trans refused⟩
          rw [rootIds_append, Nat.zero_add]
          simp only [rootIds, List.mem_append, List.mem_singleton, not_or]
          refine ⟨absent, ?_⟩
          rintro rfl
          exact met named.symm

/-- Taking roots back leaves the trees up to the watermark, or is refused for a watermark that is no
root. -/
theorem Represents.recycleTo {forest : Forest τ} {trees : List (MarkedTree τ)}
    (represents : forest.Represents trees) (watermark : Option NodeId) :
    (∃ keep drop forest', CutAt watermark trees keep drop ∧
      forest.recycleTo watermark = .ok forest' ∧ forest'.Represents keep ∧
      forest'.created = forest.created ∧
      forest'.recycled = forest.recycled + sizeAll drop) ∨
    (∃ mark, watermark = some mark ∧ mark ∉ rootIds 0 trees ∧
      forest.recycleTo watermark = .error (.notTopLevel mark)) := by
  have size := represents.size_eq
  obtain ⟨nodes, headEq, tailEq⟩ := represents
  obtain ⟨arena, head, tail, created, recycled⟩ := forest
  simp only at nodes headEq tailEq
  have enough : trees.length ≤ Forest.size ⟨arena, head, tail, created, recycled⟩ := by
    rw [size]
    exact length_le_sizeAll trees
  rcases dropRoots_layoutAll watermark head created recycled trees _ none arena enough nodes with
    ⟨keep, drop, arena', ⟨cut, last⟩, stacked', dropped⟩ | ⟨mark, named, absent, refused⟩
  · rw [← tailEq] at dropped
    have headEq' : head = firstOr (firstOr none (sizeAll keep) drop) 0 keep := by
      rw [headEq, cut, firstOr_append, Nat.zero_add]
    obtain ⟨arena'', linked, stacked''⟩ := linkAfter_lastOr
      (show (Forest.arena ⟨arena', head, watermark, created, recycled⟩).Stacks (_ ++ []) by
        simpa using stacked') headEq' none
    have size' : arena''.size = sizeAll keep := by simpa using stacked''.size_eq
    refine .inl ⟨keep, drop, ⟨arena'', firstOr none 0 keep, watermark, created,
      recycled + sizeAll drop⟩, ⟨cut, last⟩, ?_, ⟨by simpa using stacked'', rfl, last.symm⟩, rfl, rfl⟩
    rw [last] at linked
    simp only [Forest.recycleTo, dropped, Fault.ok_bind, linked, Fault.pure_eq_ok]
    have removed : arena.size - sizeAll keep = sizeAll drop := by
      rw [show arena.size = sizeAll trees from size, cut]
      simp
    simp [Forest.size, size', removed]
  · refine .inr ⟨mark, named, absent, ?_⟩
    rw [← tailEq] at refused
    simp only [Forest.recycleTo, refused, Fault.error_bind]

theorem sizeAll_of_lastOr {keep keep' : List (MarkedTree τ)}
    (last : lastOr none 0 keep = lastOr none 0 keep') : sizeAll keep = sizeAll keep' := by
  by_cases none_kept : keep = [] <;> by_cases none_kept' : keep' = []
  · rw [none_kept, none_kept']
  · rw [none_kept, lastOr_eq none 0 none_kept'] at last
    simp at last
  · rw [none_kept', lastOr_eq none 0 none_kept] at last
    simp at last
  · rw [lastOr_eq none 0 none_kept, lastOr_eq none 0 none_kept', Option.some_inj] at last
    have positive : 0 < sizeAll keep :=
      Nat.pos_of_ne_zero fun zero => none_kept (sizeAll_eq_zero.mp zero)
    have positive' : 0 < sizeAll keep' :=
      Nat.pos_of_ne_zero fun zero => none_kept' (sizeAll_eq_zero.mp zero)
    omega

theorem CutAt.unique {watermark : Option NodeId} {trees keep drop keep' drop' : List (MarkedTree τ)}
    (cut : CutAt watermark trees keep drop) (cut' : CutAt watermark trees keep' drop') :
    keep = keep' ∧ drop = drop' := by
  have sizes : sizeAll keep = sizeAll keep' := sizeAll_of_lastOr (cut.2.trans cut'.2.symm)
  rcases List.append_eq_append_iff.mp (cut.1.symm.trans cut'.1) with
    ⟨more, rfl, rfl⟩ | ⟨more, rfl, rfl⟩
  · have none_more : more = [] := sizeAll_eq_zero.mp (by simp only [sizeAll_append] at sizes; omega)
    simp [none_more]
  · have none_more : more = [] := sizeAll_eq_zero.mp (by simp only [sizeAll_append] at sizes; omega)
    simp [none_more]

theorem CutAt.mem_rootIds {mark : NodeId} {trees keep drop : List (MarkedTree τ)}
    (cut : CutAt (some mark) trees keep drop) : mark ∈ rootIds 0 trees := by
  obtain ⟨rfl, last⟩ := cut
  rcases List.eq_nil_or_concat' keep with rfl | ⟨init, tree, rfl⟩
  · simp at last
  · rw [lastOr_concat, Option.some_inj] at last
    subst last
    simp [rootIds_append, rootIds]

theorem Represents.recycleTo_lastOr {forest : Forest τ} {old new : List (MarkedTree τ)}
    (represents : forest.Represents (old ++ new)) :
    ∃ forest', forest.recycleTo (lastOr none 0 old) = .ok forest' ∧ forest'.Represents old ∧
      forest'.created = forest.created ∧ forest'.recycled = forest.recycled + sizeAll new := by
  have cut : CutAt (lastOr none 0 old) (old ++ new) old new := ⟨rfl, rfl⟩
  rcases represents.recycleTo (lastOr none 0 old) with
    ⟨keep, drop, forest', cut', recycled, represents', stats⟩ | ⟨mark, named, absent, -⟩
  · obtain ⟨rfl, rfl⟩ := cut.unique cut'
    exact ⟨forest', recycled, represents', stats⟩
  · rw [named] at cut
    exact absurd cut.mem_rootIds absent

end PegForest.Forest
