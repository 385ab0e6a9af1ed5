import PegForest.Forest.Walk
import PegForest.Proofs.Forest.WellFormed

/-!
# Walking well-formed forests

The root of a subtree is enough to walk it: its children are found in order, each is the root of a
subtree of its own with smaller ids, and what a node covers can be cut out of an input that is long
enough.
-/

set_option autoImplicit false

namespace PegForest.Forest

open MarkedTree

variable {τ : Type} {forest : Forest τ}

theorem lt_size_of_node {id : Nat} {node : Node τ} (found : forest.node id = .ok node) :
    id < forest.size := by
  by_contra outside
  have stale : forest.arena.get? id = none := if_neg outside
  rw [Forest.node, Arena.get, stale] at found
  cases found

theorem length_le_size_of_root {base : Nat} {tree : MarkedTree τ} {node : Node τ}
    (root : forest.node (tree.rootId base) = .ok node) : tree.children.length ≤ forest.size := by
  have live := lt_size_of_node root
  have length := length_le_sizeAll tree.children
  rw [rootId] at live
  omega

theorem children_of_shows {parent prev next : Option NodeId} {base : Nat} {tree : MarkedTree τ}
    (root : forest.node (tree.rootId base) = .ok (rootNode parent prev next base tree))
    (below : forest.Shows base
      (layoutAll (some (tree.rootId base)) none none base tree.children)) :
    forest.children (tree.rootId base) = .ok (rootIds base tree.children) := by
  rw [children, root, Fault.ok_bind]
  exact siblingsFrom_of_shows (length_le_size_of_root root) below

theorem subtrees_of_shows {parent prev next : Option NodeId} {trees : List (MarkedTree τ)}
    {base bound limit : Nat} (shows : forest.Shows base (layoutAll parent prev next base trees))
    (sound : ∀ tree ∈ trees, tree.Sound ∧ tree.stop ≤ limit) (below : base + sizeAll trees ≤ bound) :
    List.Forall₂
      (fun id tree => id < bound ∧ tree.stop ≤ limit ∧ ∃ low, forest.Subtree id low tree)
      (rootIds base trees) trees := by
  induction trees generalizing base prev with
  | nil => exact .nil
  | cons tree rest ih =>
      obtain ⟨inner, root, later⟩ := shows_cons.mp shows
      rw [List.forall_mem_cons] at sound
      rw [sizeAll_cons] at below
      have place := tree.rootId_add_one base
      refine .cons ⟨by omega, sound.1.2, base, rfl, ⟨_, _, _, root⟩, inner, sound.1.1⟩ ?_
      exact ih later sound.2 (by omega)

theorem Represents.subtree_head {tree : MarkedTree τ} {rest : List (MarkedTree τ)}
    (represents : forest.Represents (tree :: rest)) (sound : tree.Sound) :
    ∃ root, forest.head = some root ∧ ∃ low, forest.Subtree root low tree := by
  obtain ⟨inner, root, -⟩ := shows_cons.mp represents.shows
  exact ⟨tree.rootId 0, represents.head, 0, rfl, ⟨_, _, _, root⟩, inner, sound⟩

theorem Represents.length_le_size {trees : List (MarkedTree τ)} (represents : forest.Represents trees) :
    trees.length ≤ forest.size := by
  rw [represents.size_eq]
  exact length_le_sizeAll trees

theorem Represents.roots_eq {trees : List (MarkedTree τ)} (represents : forest.Represents trees) :
    forest.roots = .ok (rootIds 0 trees) := by
  rw [roots, represents.head]
  exact siblingsFrom_of_shows represents.length_le_size represents.shows

theorem Represents.root_singleton {tree : MarkedTree τ} (represents : forest.Represents [tree])
    (sound : tree.Sound) : ∃ root low, forest.roots = .ok [root] ∧ forest.Subtree root low tree := by
  obtain ⟨root, head, low, subtree⟩ := represents.subtree_head sound
  rw [represents.head, firstOr_cons, Option.some_inj] at head
  refine ⟨root, low, ?_, subtree⟩
  rw [represents.roots_eq, ← head]
  rfl

/-- A way of reading that gives an answer at each tree reads all the answers off the roots. -/
theorem mapM_of_subtrees {β : Type} {read : NodeId → Except Fault β} {bound : Nat}
    {ids : List NodeId} {trees : List (MarkedTree τ)} {found : List β}
    (reads : List.Forall₂ (fun tree answer => ∀ id low, forest.Subtree id low tree → id < bound →
      read id = .ok answer) trees found)
    (below : List.Forall₂ (fun id tree => id < bound ∧ ∃ low, forest.Subtree id low tree) ids
      trees) :
    ids.mapM read = .ok found := by
  induction reads generalizing ids with
  | nil =>
      cases below
      rfl
  | cons here _ ih =>
      cases below with
      | cons root rest =>
          obtain ⟨smaller, low, subtree⟩ := root
          simp [List.mapM_cons, here _ low subtree smaller, ih rest]

namespace Subtree

variable {id low : Nat} {tree : MarkedTree τ}

theorem children_eq (subtree : forest.Subtree id low tree) :
    forest.children id = .ok (rootIds low tree.children) := by
  obtain ⟨rfl, ⟨parent, prev, next, root⟩, below, -⟩ := subtree
  exact children_of_shows root below

theorem subtrees (subtree : forest.Subtree id low tree) :
    List.Forall₂
      (fun child sub => child < id ∧ sub.stop ≤ tree.stop ∧ ∃ low, forest.Subtree child low sub)
      (rootIds low tree.children) tree.children := by
  obtain ⟨place, -, below, sound⟩ := subtree
  cases sound with
  | node _ sound inside _ =>
      refine subtrees_of_shows below ?_ (Nat.le_of_eq place)
      intro child member
      exact ⟨sound child member, (inside child member).2.1⟩

/-- Children have smaller ids than their parent, so a bound on the parent is one for them. -/
theorem mapM_children {β : Type} {read : NodeId → Except Fault β} {bound : Nat} {found : List β}
    (subtree : forest.Subtree id low tree) (inside : id ≤ bound)
    (reads : List.Forall₂ (fun child answer => ∀ id low, forest.Subtree id low child → id < bound →
      read id = .ok answer) tree.children found) :
    (rootIds low tree.children).mapM read = .ok found := by
  apply mapM_of_subtrees reads
  apply subtree.subtrees.imp
  intro child sub below
  exact ⟨Nat.lt_of_lt_of_le below.1 inside, below.2.2⟩

theorem text_eq {α : Type} {source : Array α} (subtree : forest.Subtree id low tree)
    (inside : tree.stop ≤ source.size) :
    forest.text id source = .ok (source.extract tree.start tree.stop) := by
  obtain ⟨-, ⟨parent, prev, next, root⟩, -, sound⟩ := subtree
  rw [text, root, Fault.ok_bind]
  exact if_pos ⟨sound.forward, inside⟩

end Subtree

end PegForest.Forest
