import PegForest.Forest.Basic

/-!
# The nodes of a list of trees

A `MarkedTree` is a tree on its own whose nodes also say whether they wait for the nodes before
them.  `layoutAll` writes a list of such trees down as linked nodes in postorder: a tree that is
written from `base` on takes the ids `base` to `base + size - 1`, its root last and its children in
order before it.  All links of a node follow from the trees and from four facts about the place of
the list: the parent, the root before it, the root after it, and the first id.

A forest is described by the trees it is the layout of, so what an operation does to a forest is
said as what it does to a list of trees.
-/

set_option autoImplicit false

namespace PegForest

/-- A tree whose nodes keep their marks. -/
inductive MarkedTree (τ : Type) where
  | node (tag : Option τ) (start stop : Nat) (bookmark : Bool) (children : List (MarkedTree τ))

namespace MarkedTree

variable {τ : Type}

def tag : MarkedTree τ → Option τ
  | node tag _ _ _ _ => tag

def start : MarkedTree τ → Nat
  | node _ start _ _ _ => start

def stop : MarkedTree τ → Nat
  | node _ _ stop _ _ => stop

def bookmark : MarkedTree τ → Bool
  | node _ _ _ bookmark _ => bookmark

def children : MarkedTree τ → List (MarkedTree τ)
  | node _ _ _ _ children => children

def unmark : MarkedTree τ → MarkedTree τ
  | node tag start stop _ children => node tag start stop false children

mutual

def size : MarkedTree τ → Nat
  | node _ _ _ _ children => sizeAll children + 1

def sizeAll : List (MarkedTree τ) → Nat
  | [] => 0
  | tree :: rest => tree.size + sizeAll rest

end

def rootId (base : Nat) (tree : MarkedTree τ) : Nat :=
  base + sizeAll tree.children

def rootIds (base : Nat) : List (MarkedTree τ) → List NodeId
  | [] => []
  | tree :: rest => tree.rootId base :: rootIds (base + tree.size) rest

/-- The first root of trees that are written from `base` on, or `after` where there is none. -/
def firstOr (after : Option NodeId) (base : Nat) : List (MarkedTree τ) → Option NodeId
  | [] => after
  | tree :: _ => some (tree.rootId base)

/-- The last root of trees that are written from `base` on, or `before` where there is none. -/
def lastOr (before : Option NodeId) (base : Nat) : List (MarkedTree τ) → Option NodeId
  | [] => before
  | tree :: rest => lastOr (some (tree.rootId base)) (base + tree.size) rest

def rootNode (parent prev next : Option NodeId) (base : Nat) (tree : MarkedTree τ) : Node τ :=
  { tag := tree.tag
    start := tree.start
    stop := tree.stop
    bookmark := tree.bookmark
    parent := parent
    prev := prev
    next := next
    firstChild := firstOr none base tree.children
    lastChild := lastOr none base tree.children }

mutual

def layout (parent prev next : Option NodeId) (base : Nat) : MarkedTree τ → List (Node τ)
  | node tag start stop bookmark children =>
      layoutAll (some (base + sizeAll children)) none none base children ++
        [rootNode parent prev next base (node tag start stop bookmark children)]

def layoutAll (parent prev next : Option NodeId) (base : Nat) : List (MarkedTree τ) → List (Node τ)
  | [] => []
  | tree :: rest =>
      layout parent prev (firstOr next (base + tree.size) rest) base tree ++
        layoutAll parent (some (tree.rootId base)) next (base + tree.size) rest

end

mutual

theorem tree_induction {motive : List (MarkedTree τ) → Prop} (nil : motive [])
    (cons : ∀ tree rest, motive tree.children → motive rest → motive (tree :: rest)) :
    ∀ tree : MarkedTree τ, motive tree.children
  | .node _ _ _ _ children => trees_induction nil cons children

/-- Induction on trees that follow each other: what the children of the first have and what the
others have, all have. -/
@[elab_as_elim]
theorem trees_induction {motive : List (MarkedTree τ) → Prop} (nil : motive [])
    (cons : ∀ tree rest, motive tree.children → motive rest → motive (tree :: rest)) :
    ∀ trees, motive trees
  | [] => nil
  | tree :: rest => cons tree rest (tree_induction nil cons tree) (trees_induction nil cons rest)

end

/-! ## Sizes and ids -/

theorem size_eq (tree : MarkedTree τ) : tree.size = sizeAll tree.children + 1 := by
  cases tree
  simp [size, children]

theorem size_pos (tree : MarkedTree τ) : 0 < tree.size := by
  rw [size_eq]
  omega

theorem rootId_add_one (base : Nat) (tree : MarkedTree τ) :
    tree.rootId base + 1 = base + tree.size := by
  rw [rootId, size_eq]
  omega

@[simp] theorem sizeAll_nil : sizeAll ([] : List (MarkedTree τ)) = 0 := by
  simp [sizeAll]

@[simp] theorem sizeAll_cons (tree : MarkedTree τ) (rest : List (MarkedTree τ)) :
    sizeAll (tree :: rest) = tree.size + sizeAll rest := by
  simp [sizeAll]

@[simp] theorem sizeAll_append (front back : List (MarkedTree τ)) :
    sizeAll (front ++ back) = sizeAll front + sizeAll back := by
  induction front with
  | nil => simp
  | cons tree rest ih => simp [ih, Nat.add_assoc]

theorem length_le_sizeAll (trees : List (MarkedTree τ)) : trees.length ≤ sizeAll trees := by
  induction trees with
  | nil => simp
  | cons tree rest ih =>
      have := tree.size_pos
      simp only [List.length_cons, sizeAll_cons]
      omega

theorem sizeAll_eq_zero {trees : List (MarkedTree τ)} : sizeAll trees = 0 ↔ trees = [] := by
  cases trees with
  | nil => simp
  | cons tree rest =>
      have := tree.size_pos
      simp only [sizeAll_cons, reduceCtorEq, iff_false]
      omega

@[simp] theorem firstOr_nil (after : Option NodeId) (base : Nat) :
    firstOr after base ([] : List (MarkedTree τ)) = after := rfl

@[simp] theorem firstOr_cons (after : Option NodeId) (base : Nat) (tree : MarkedTree τ)
    (rest : List (MarkedTree τ)) : firstOr after base (tree :: rest) = some (tree.rootId base) := rfl

@[simp] theorem lastOr_nil (before : Option NodeId) (base : Nat) :
    lastOr before base ([] : List (MarkedTree τ)) = before := rfl

theorem firstOr_append (after : Option NodeId) (base : Nat) (front back : List (MarkedTree τ)) :
    firstOr after base (front ++ back) =
      firstOr (firstOr after (base + sizeAll front) back) base front := by
  cases front <;> simp [firstOr]

theorem lastOr_append (before : Option NodeId) (base : Nat) (front back : List (MarkedTree τ)) :
    lastOr before base (front ++ back) =
      lastOr (lastOr before base front) (base + sizeAll front) back := by
  induction front generalizing before base with
  | nil => simp
  | cons tree rest ih => simp [lastOr, ih, Nat.add_assoc]

theorem lastOr_eq (before : Option NodeId) (base : Nat) {trees : List (MarkedTree τ)}
    (some_tree : trees ≠ []) : lastOr before base trees = some (base + sizeAll trees - 1) := by
  induction trees generalizing before base with
  | nil => exact absurd rfl some_tree
  | cons tree rest ih =>
      have place := tree.rootId_add_one base
      by_cases alone : rest = []
      · have last : tree.rootId base = base + tree.size - 1 := by omega
        simp [alone, lastOr, last]
      · rw [lastOr, ih _ _ alone, sizeAll_cons, Nat.add_assoc]

theorem rootIds_head? (base : Nat) (trees : List (MarkedTree τ)) :
    (rootIds base trees).head? = firstOr none base trees := by
  cases trees <;> simp [rootIds, firstOr]

theorem length_rootIds (base : Nat) (trees : List (MarkedTree τ)) :
    (rootIds base trees).length = trees.length := by
  induction trees generalizing base with
  | nil => rfl
  | cons tree rest ih => rw [rootIds, List.length_cons, ih, List.length_cons]

theorem rootIds_append (base : Nat) (front back : List (MarkedTree τ)) :
    rootIds base (front ++ back) = rootIds base front ++ rootIds (base + sizeAll front) back := by
  induction front generalizing base with
  | nil => simp [rootIds]
  | cons tree rest ih => simp [rootIds, ih, Nat.add_assoc]

/-! ## Layouts -/

theorem layout_eq (parent prev next : Option NodeId) (base : Nat) (tree : MarkedTree τ) :
    layout parent prev next base tree =
      layoutAll (some (tree.rootId base)) none none base tree.children ++
        [rootNode parent prev next base tree] := by
  cases tree
  simp [layout, rootId, children]

@[simp] theorem layoutAll_nil (parent prev next : Option NodeId) (base : Nat) :
    layoutAll parent prev next base ([] : List (MarkedTree τ)) = [] := by
  simp [layoutAll]

theorem layoutAll_cons (parent prev next : Option NodeId) (base : Nat) (tree : MarkedTree τ)
    (rest : List (MarkedTree τ)) :
    layoutAll parent prev next base (tree :: rest) =
      layoutAll (some (tree.rootId base)) none none base tree.children ++
        rootNode parent prev (firstOr next (base + tree.size) rest) base tree ::
          layoutAll parent (some (tree.rootId base)) next (base + tree.size) rest := by
  simp [layoutAll, layout_eq]

mutual

theorem length_layout (parent prev next : Option NodeId) (base : Nat) :
    ∀ tree : MarkedTree τ, (layout parent prev next base tree).length = tree.size
  | node tag start stop bookmark children => by
      simp [layout, size, length_layoutAll]

@[simp] theorem length_layoutAll (parent prev next : Option NodeId) (base : Nat) :
    ∀ trees : List (MarkedTree τ), (layoutAll parent prev next base trees).length = sizeAll trees
  | [] => by simp
  | tree :: rest => by
      simp [layoutAll, length_layout parent prev _ base tree,
        length_layoutAll parent _ next _ rest]

end

theorem layoutAll_append (parent prev next : Option NodeId) (base : Nat)
    (front back : List (MarkedTree τ)) :
    layoutAll parent prev next base (front ++ back) =
      layoutAll parent prev (firstOr next (base + sizeAll front) back) base front ++
        layoutAll parent (lastOr prev base front) next (base + sizeAll front) back := by
  induction front generalizing prev base with
  | nil => simp
  | cons tree rest ih =>
      simp only [List.cons_append, layoutAll_cons, ih, sizeAll_cons, lastOr, firstOr_append,
        List.append_assoc, Nat.add_assoc]

theorem layoutAll_concat (parent prev next : Option NodeId) (base : Nat)
    (front : List (MarkedTree τ)) (last : MarkedTree τ) :
    layoutAll parent prev next base (front ++ [last]) =
      (layoutAll parent prev (some (last.rootId (base + sizeAll front))) base front ++
        layoutAll (some (last.rootId (base + sizeAll front))) none none (base + sizeAll front)
          last.children) ++
        [rootNode parent (lastOr prev base front) next (base + sizeAll front) last] := by
  rw [layoutAll_append, layoutAll_cons]
  simp

theorem lastOr_concat (before : Option NodeId) (base : Nat) (front : List (MarkedTree τ))
    (last : MarkedTree τ) :
    lastOr before base (front ++ [last]) = some (last.rootId (base + sizeAll front)) := by
  rw [lastOr_append]
  rfl

/-! ## Changing the roots only -/

section Edit

variable {edit : MarkedTree τ → MarkedTree τ}

theorem rootId_edit (kept : ∀ tree, (edit tree).children = tree.children) (base : Nat)
    (tree : MarkedTree τ) : (edit tree).rootId base = tree.rootId base := by
  simp [rootId, kept]

theorem size_edit (kept : ∀ tree, (edit tree).children = tree.children) (tree : MarkedTree τ) :
    (edit tree).size = tree.size := by
  simp [size_eq, kept]

theorem sizeAll_map (kept : ∀ tree, (edit tree).children = tree.children)
    (trees : List (MarkedTree τ)) : sizeAll (trees.map edit) = sizeAll trees := by
  induction trees with
  | nil => simp
  | cons tree rest ih => simp [ih, size_edit kept]

theorem firstOr_map (kept : ∀ tree, (edit tree).children = tree.children) (after : Option NodeId)
    (base : Nat) (trees : List (MarkedTree τ)) :
    firstOr after base (trees.map edit) = firstOr after base trees := by
  cases trees <;> simp [rootId_edit kept]

theorem lastOr_map (kept : ∀ tree, (edit tree).children = tree.children) (before : Option NodeId)
    (base : Nat) (trees : List (MarkedTree τ)) :
    lastOr before base (trees.map edit) = lastOr before base trees := by
  induction trees generalizing before base with
  | nil => simp
  | cons tree rest ih => simp [lastOr, rootId_edit kept, size_edit kept, ih]

end Edit

@[simp] theorem children_unmark (tree : MarkedTree τ) : tree.unmark.children = tree.children := by
  cases tree
  rfl

end MarkedTree

end PegForest
