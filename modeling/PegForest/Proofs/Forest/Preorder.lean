import Mathlib.Data.List.Induction
import PegForest.Forest.Tree
import PegForest.Proofs.Forest.Walk

/-!
# Traversals of represented forests

Freezing follows the links forward, from the first root and from first children, and gives the trees
without their marks.  The preorder walk follows the links backward, from the last root and from last
children, and meets the same trees: it lists the ids that their layout gives them.

Depths tell the entries of the list apart.  The roots are the entries of depth 0.  The descendants of
a node are the entries behind its own that lie deeper, up to the first one that does not, and the
children of the node are those just one step deeper.
-/

set_option autoImplicit false

namespace PegForest

namespace MarkedTree

variable {τ : Type}

mutual

def bare : MarkedTree τ → Tree τ
  | node tag start stop _ children => .node tag start stop (bareAll children)

def bareAll : List (MarkedTree τ) → List (Tree τ)
  | [] => []
  | tree :: rest => bare tree :: bareAll rest

end

mutual

def preorderIds (depth base : Nat) : MarkedTree τ → List (Nat × NodeId)
  | node _ _ _ _ children =>
      (depth, base + sizeAll children) :: preorderIdsAll (depth + 1) base children

def preorderIdsAll (depth base : Nat) : List (MarkedTree τ) → List (Nat × NodeId)
  | [] => []
  | tree :: rest => preorderIds depth base tree ++ preorderIdsAll depth (base + tree.size) rest

end

/-! ## Trees without marks -/

@[simp] theorem bareAll_nil : bareAll ([] : List (MarkedTree τ)) = [] := by
  rw [bareAll]

@[simp] theorem bareAll_cons (tree : MarkedTree τ) (rest : List (MarkedTree τ)) :
    bareAll (tree :: rest) =
      .node tree.tag tree.start tree.stop (bareAll tree.children) :: bareAll rest := by
  cases tree
  rw [bareAll, bare]
  rfl

@[simp] theorem bareAll_append (front back : List (MarkedTree τ)) :
    bareAll (front ++ back) = bareAll front ++ bareAll back := by
  induction front with
  | nil => rw [bareAll_nil]; rfl
  | cons tree rest ih => rw [List.cons_append, bareAll_cons, bareAll_cons, ih, List.cons_append]

@[simp] theorem length_bareAll (trees : List (MarkedTree τ)) :
    (bareAll trees).length = trees.length := by
  induction trees with
  | nil => rw [bareAll_nil]; rfl
  | cons tree rest ih => rw [bareAll_cons, List.length_cons, ih, List.length_cons]

/-! ## Ids in preorder -/

@[simp] theorem preorderIdsAll_nil (depth base : Nat) :
    preorderIdsAll depth base ([] : List (MarkedTree τ)) = [] := by
  rw [preorderIdsAll]

theorem preorderIdsAll_cons (depth base : Nat) (tree : MarkedTree τ) (rest : List (MarkedTree τ)) :
    preorderIdsAll depth base (tree :: rest) =
      (depth, tree.rootId base) :: (preorderIdsAll (depth + 1) base tree.children ++
        preorderIdsAll depth (base + tree.size) rest) := by
  cases tree
  rw [preorderIdsAll, preorderIds]
  rfl

theorem le_depth {depth base : Nat} {trees : List (MarkedTree τ)} :
    ∀ entry ∈ preorderIdsAll depth base trees, depth ≤ entry.1 := by
  induction trees using trees_induction generalizing depth base with
  | nil => simp
  | cons tree rest below ih =>
      rw [preorderIdsAll_cons, List.forall_mem_cons, List.forall_mem_append]
      exact ⟨Nat.le_refl depth, fun entry member => Nat.le_of_succ_le (below entry member), ih⟩

theorem preorderIdsAll_perm (depth base : Nat) (trees : List (MarkedTree τ)) :
    ((preorderIdsAll depth base trees).map Prod.snd).Perm (List.range' base (sizeAll trees)) := by
  induction trees using trees_induction generalizing depth base with
  | nil => simp
  | cons tree rest below ih =>
      have tree_ids : List.range' base tree.size =
          List.range' base (sizeAll tree.children) ++ [tree.rootId base] := by
        rw [size_eq, List.range'_1_concat, rootId]
      rw [preorderIdsAll_cons, List.map_cons, List.map_append, sizeAll_cons, ← List.range'_append_1,
        tree_ids, List.append_assoc, List.singleton_append]
      exact (((below _ _).append (ih _ _)).cons _).trans List.perm_middle.symm

/-- The entries that lie no deeper than the list begins are the roots. -/
theorem filter_depth (depth base : Nat) (trees : List (MarkedTree τ)) :
    ((preorderIdsAll depth base trees).filter fun entry => entry.1 = depth).map Prod.snd =
      rootIds base trees := by
  induction trees generalizing base with
  | nil => rw [preorderIdsAll_nil]; rfl
  | cons tree rest ih =>
      have deeper : (preorderIdsAll (depth + 1) base tree.children).filter
          (fun entry => entry.1 = depth) = [] := by
        rw [List.filter_eq_nil_iff]
        intro entry member same
        have := le_depth entry member
        rw [decide_eq_true_eq] at same
        omega
      rw [preorderIdsAll_cons, List.filter_cons_of_pos (by simp), List.filter_append, deeper,
        List.nil_append, List.map_cons, ih, rootIds]

end MarkedTree

namespace Forest

open MarkedTree

variable {τ : Type} {forest : Forest τ}

/-! ## Following the links -/

theorem treesFrom_of_shows {parent prev : Option NodeId} {trees : List (MarkedTree τ)}
    {steps base : Nat} (enough : sizeAll trees ≤ steps)
    (shows : forest.Shows base (layoutAll parent prev none base trees)) :
    forest.treesFrom steps (firstOr none base trees) = .ok (bareAll trees) := by
  induction trees using trees_induction generalizing steps base parent prev with
  | nil =>
      rw [bareAll_nil]
      cases steps <;> rfl
  | cons tree rest below ih =>
      rw [sizeAll_cons, size_eq] at enough
      obtain ⟨steps, rfl⟩ := Nat.exists_eq_add_one_of_ne_zero (show steps ≠ 0 by omega)
      obtain ⟨inner, root, later⟩ := shows_cons.mp shows
      have fewer : sizeAll tree.children ≤ steps := by omega
      have fewer' : sizeAll rest ≤ steps := by omega
      have under := below fewer inner
      have others := ih fewer' later
      simp only [firstOr_cons, treesFrom, root, Fault.ok_bind, rootNode, under, others, bareAll_cons,
        Fault.pure_eq_ok]

theorem siblingsUpTo_of_shows {parent next : Option NodeId} {trees : List (MarkedTree τ)}
    {steps base : Nat} (enough : trees.length ≤ steps)
    (shows : forest.Shows base (layoutAll parent none next base trees)) (following : List NodeId) :
    forest.siblingsUpTo steps (lastOr none base trees) following =
      .ok (rootIds base trees ++ following) := by
  induction trees using List.reverseRecOn generalizing steps next following with
  | nil => cases steps <;> rfl
  | append_singleton init last ih =>
      rw [List.length_append, List.length_singleton] at enough
      obtain ⟨steps, rfl⟩ := Nat.exists_eq_add_one_of_ne_zero (Nat.ne_zero_of_lt enough)
      rw [layoutAll_append, shows_append, length_layoutAll, shows_cons] at shows
      obtain ⟨before, -, root, -⟩ := shows
      have others := ih (Nat.le_of_succ_le_succ enough) before
        (last.rootId (base + sizeAll init) :: following)
      rw [lastOr_concat, siblingsUpTo, root, Fault.ok_bind, rootNode, others, rootIds_append, rootIds,
        rootIds, List.append_assoc, List.singleton_append]

theorem preorderFrom_of_shows {parent prev next : Option NodeId} {trees : List (MarkedTree τ)}
    {steps base : Nat} {pending others : List (Nat × NodeId)}
    (shows : forest.Shows base (layoutAll parent prev next base trees)) (depth : Nat)
    (onward : forest.preorderFrom steps pending = .ok others) :
    forest.preorderFrom (sizeAll trees + steps)
        ((rootIds base trees).map (fun id => (depth, id)) ++ pending) =
      .ok (preorderIdsAll depth base trees ++ others) := by
  induction trees using trees_induction generalizing parent prev next steps depth base pending others
  with
  | nil => rwa [sizeAll_nil, Nat.zero_add, preorderIdsAll_nil]
  | cons tree rest below ih =>
      obtain ⟨inner, root, later⟩ := shows_cons.mp shows
      have children := siblingsUpTo_of_shows (length_le_size_of_root root) inner []
      rw [List.append_nil] at children
      -- the children come before what was pending, and the other trees are pending with it
      have listed := below inner (depth + 1) (ih later depth onward)
      have steps_eq : sizeAll (tree :: rest) + steps =
          sizeAll tree.children + (sizeAll rest + steps) + 1 := by
        rw [sizeAll_cons, size_eq]
        omega
      simp only [steps_eq, rootIds, List.map_cons, List.cons_append, preorderFrom, root, Fault.ok_bind,
        rootNode, children, listed, Fault.pure_eq_ok, preorderIdsAll_cons, List.append_assoc]

theorem Represents.freeze_eq {trees : List (MarkedTree τ)} (represents : forest.Represents trees) :
    forest.freeze = .ok (bareAll trees) := by
  rw [freeze, represents.head]
  exact treesFrom_of_shows (Nat.le_of_eq represents.size_eq.symm) represents.shows

theorem Represents.preorder_eq {trees : List (MarkedTree τ)} (represents : forest.Represents trees) :
    forest.preorder = .ok (preorderIdsAll 0 0 trees) := by
  have roots := siblingsUpTo_of_shows represents.length_le_size represents.shows []
  have ended : forest.preorderFrom 0 [] = .ok [] := rfl
  have listed := preorderFrom_of_shows represents.shows 0 ended
  rw [List.append_nil] at roots
  rw [preorder, represents.tail, roots, Fault.ok_bind, represents.size_eq]
  simpa using listed

/-! ## The two traversals side by side -/

structure Copies (forest : Forest τ) (id : NodeId) (tree : Tree τ) : Prop where
  node : ∃ node, forest.node id = .ok node ∧ node.tag = tree.tag ∧ node.start = tree.start ∧
    node.stop = tree.stop
  children : ∃ ids, forest.children id = .ok ids ∧ ids.length = tree.children.length

theorem copies_of_shows {parent prev next : Option NodeId} {trees : List (MarkedTree τ)}
    {depth base : Nat} (shows : forest.Shows base (layoutAll parent prev next base trees)) :
    List.Forall₂ (fun entry flat => entry.1 = flat.1 ∧ forest.Copies entry.2 flat.2)
      (preorderIdsAll depth base trees) (Tree.preorderAll depth (bareAll trees)) := by
  induction trees using trees_induction generalizing parent prev next depth base with
  | nil =>
      rw [preorderIdsAll_nil, bareAll_nil, Tree.preorderAll]
      exact .nil
  | cons tree rest below ih =>
      obtain ⟨inner, root, later⟩ := shows_cons.mp shows
      rw [preorderIdsAll_cons, bareAll_cons, Tree.preorderAll, Tree.preorder, List.cons_append]
      refine .cons ⟨rfl, ⟨_, root, rfl, rfl, rfl⟩, _, children_of_shows root inner, ?_⟩ ?_
      · rw [length_rootIds, Tree.children, length_bareAll]
      · exact List.rel_append (below inner) (ih later)

/-- The part of a list of entries that lies deeper than what stands before the list. -/
def block (depth : Nat) (entries : List (Nat × NodeId)) : List (Nat × NodeId) :=
  entries.takeWhile fun entry => depth < entry.1

/-- Every entry has its children in the block behind it. -/
def ShowsChildren (forest : Forest τ) : List (Nat × NodeId) → Prop
  | [] => True
  | (depth, id) :: rest =>
      forest.children id =
        .ok (((block depth rest).filter fun entry => entry.1 = depth + 1).map Prod.snd) ∧
      forest.ShowsChildren rest

/-- A block ends with the trees that are that deep, when what follows lies higher. -/
theorem block_append {depth base : Nat} {trees : List (MarkedTree τ)}
    {others : List (Nat × NodeId)} (higher : ∀ entry ∈ others.head?, entry.1 ≤ depth) :
    block depth (preorderIdsAll (depth + 1) base trees ++ others) =
      preorderIdsAll (depth + 1) base trees := by
  have deeper : ∀ entry ∈ preorderIdsAll (depth + 1) base trees, decide (depth < entry.1) = true :=
    fun entry member => decide_eq_true (le_depth entry member)
  rw [block, List.takeWhile_append_of_pos deeper]
  cases others with
  | nil => simp
  | cons entry rest =>
      have first := higher entry rfl
      rw [List.takeWhile_cons_of_neg (by simpa using first), List.append_nil]

theorem showsChildren_of_shows {parent prev next : Option NodeId} {trees : List (MarkedTree τ)}
    {depth base : Nat} {others : List (Nat × NodeId)}
    (shows : forest.Shows base (layoutAll parent prev next base trees))
    (higher : ∀ entry ∈ others.head?, entry.1 ≤ depth) (onward : forest.ShowsChildren others) :
    forest.ShowsChildren (preorderIdsAll depth base trees ++ others) := by
  induction trees using trees_induction generalizing parent prev next depth base others with
  | nil => rwa [preorderIdsAll_nil, List.nil_append]
  | cons tree rest below ih =>
      obtain ⟨inner, root, later⟩ := shows_cons.mp shows
      have later_higher : ∀ entry ∈
          (preorderIdsAll depth (base + tree.size) rest ++ others).head?, entry.1 ≤ depth := by
        cases rest with
        | nil => rwa [preorderIdsAll_nil, List.nil_append]
        | cons tree' rest' =>
            rw [preorderIdsAll_cons]
            intro entry first
            cases first
            exact Nat.le_refl depth
      rw [preorderIdsAll_cons, List.cons_append, List.append_assoc]
      refine ⟨?_, below inner ?_ (ih later higher onward)⟩
      · rw [children_of_shows root inner, block_append later_higher, filter_depth]
      · exact fun entry first => Nat.le_succ_of_le (later_higher entry first)

theorem ShowsChildren.of_suffix {entries back : List (Nat × NodeId)} {depth : Nat} {id : NodeId}
    (shows : forest.ShowsChildren entries) (place : (depth, id) :: back <:+ entries) :
    forest.children id =
      .ok (((block depth back).filter fun entry => entry.1 = depth + 1).map Prod.snd) := by
  obtain ⟨front, rfl⟩ := place
  induction front with
  | nil => exact shows.1
  | cons entry front ih => exact ih shows.2

/-- The entries of the preorder walk flatten the frozen trees and list the nodes of the forest. -/
structure Traverses (forest : Forest τ) (trees : List (Tree τ)) (entries : List (Nat × NodeId)) :
    Prop where
  flattens : List.Forall₂ (fun entry flat => entry.1 = flat.1 ∧ forest.Copies entry.2 flat.2)
    entries (Tree.preorderAll 0 trees)
  once : (entries.map Prod.snd).Nodup
  complete : ∀ id, id ∈ entries.map Prod.snd ↔ ∃ node, forest.node id = .ok node
  count : entries.length = forest.size
  roots : forest.roots = .ok ((entries.filter fun entry => entry.1 = 0).map Prod.snd)
  children : ∀ depth id back, (depth, id) :: back <:+ entries → forest.children id =
    .ok (((block depth back).filter fun entry => entry.1 = depth + 1).map Prod.snd)

theorem Represents.traverses {trees : List (MarkedTree τ)} (represents : forest.Represents trees) :
    forest.Traverses (bareAll trees) (preorderIdsAll 0 0 trees) := by
  have listed := preorderIdsAll_perm 0 0 trees
  have every : forest.ShowsChildren (preorderIdsAll 0 0 trees) := by
    rw [← List.append_nil (preorderIdsAll 0 0 trees)]
    exact showsChildren_of_shows represents.shows (by simp) trivial
  constructor
  · exact copies_of_shows represents.shows
  · exact listed.nodup_iff.mpr List.nodup_range'
  · intro id
    rw [listed.mem_iff, List.mem_range'_1, ← represents.size_eq, Nat.zero_add]
    constructor
    · intro live
      rw [represents.size_eq, ← length_layoutAll none none none 0 trees] at live
      exact ⟨_, represents.nodes.get_eq_ok.mpr (List.getElem?_eq_getElem live.2)⟩
    · intro live
      obtain ⟨node, found⟩ := live
      exact ⟨Nat.zero_le id, lt_size_of_node found⟩
  · have length := listed.length_eq
    rwa [List.length_map, List.length_range', ← represents.size_eq] at length
  · rw [filter_depth]
    exact represents.roots_eq
  · exact fun depth id back => every.of_suffix

end Forest

end PegForest
