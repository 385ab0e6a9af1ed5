import PegForest.Proofs.Forest.Cover

/-!
# Well-formed forests

`WellFormed` says of a forest, in terms of its nodes alone, that its links form lists of siblings,
that following them from the first root numbers the nodes in postorder, that only roots carry a
mark, and that the ranges of children lie inside the range of their parent and begin in order.

A forest that represents sound trees is well-formed: every id is the root of a subtree, the nodes of
that subtree end at the id, and all that is asked of the id can be read off the subtree.
-/

set_option autoImplicit false

namespace PegForest.Forest

open MarkedTree

variable {τ : Type}

/-- The ids follow each other as children of `parent`, the first of them after `prev`. -/
def Linked (forest : Forest τ) (parent : Option NodeId) :
    (prev : Option NodeId) → List NodeId → Prop
  | _, [] => True
  | prev, id :: rest =>
      (∃ node, forest.node id = .ok node ∧ node.parent = parent ∧ node.prev = prev ∧
        node.next = rest.head?) ∧ forest.Linked parent (some id) rest

structure Siblings (forest : Forest τ) (parent first last : Option NodeId) (ids : List NodeId) :
    Prop where
  first : first = ids.head?
  last : last = ids.getLast?
  linked : forest.Linked parent none ids

/-- The ids that are reached from a node over its children and the siblings after it, children
before their parents. -/
inductive Postorder (forest : Forest τ) : Option NodeId → List NodeId → Prop where
  | nil : Postorder forest none []
  | cons {id : NodeId} {node : Node τ} {below rest : List NodeId} (found : forest.node id = .ok node)
      (children : Postorder forest node.firstChild below) (siblings : Postorder forest node.next rest) :
      Postorder forest (some id) (below ++ id :: rest)

structure Family (forest : Forest τ) (id : NodeId) (node : Node τ) (children : List NodeId) :
    Prop where
  siblings : forest.Siblings (some id) node.firstChild node.lastChild children
  inside : ∀ child ∈ children, ∀ below, forest.node child = .ok below →
    node.start ≤ below.start ∧ below.stop ≤ node.stop
  ordered : children.Pairwise fun a b => ∀ left right, forest.node a = .ok left →
    forest.node b = .ok right → left.start ≤ right.start

structure WellFormed (forest : Forest τ) : Prop where
  roots : ∃ roots, forest.Siblings none forest.head forest.tail roots ∧
    ∀ id node, forest.node id = .ok node → node.bookmark = true → id ∈ roots
  /-- The ids are the places of the nodes in postorder; each is reached, and reached once. -/
  postorder : forest.Postorder forest.head (List.range forest.size)
  /-- The descendants of a node have the ids directly below it. -/
  descendants : ∀ id node, forest.node id = .ok node →
    ∃ low ≤ id, forest.Postorder node.firstChild (List.range' low (id - low))
  families : ∀ id node, forest.node id = .ok node → ∃ children, forest.Family id node children
  forward : ∀ id node, forest.node id = .ok node → node.start ≤ node.stop

variable {forest : Forest τ}

/-! ## Links -/

theorem linked_of_shows {parent : Option NodeId} (trees : List (MarkedTree τ)) (base : Nat)
    (prev : Option NodeId) (shows : forest.Shows base (layoutAll parent prev none base trees)) :
    forest.Linked parent prev (rootIds base trees) := by
  induction trees generalizing base prev with
  | nil => trivial
  | cons tree rest ih =>
      obtain ⟨_, root, later⟩ := shows_cons.mp shows
      refine ⟨⟨_, root, rfl, rfl, ?_⟩, ih _ _ later⟩
      rw [rootIds_head?]
      rfl

theorem getLast?_rootIds (base : Nat) (trees : List (MarkedTree τ)) :
    (rootIds base trees).getLast? = lastOr none base trees := by
  rcases List.eq_nil_or_concat' trees with rfl | ⟨init, last, rfl⟩
  · rfl
  · rw [rootIds_append, lastOr_concat]
    simp [rootIds]

theorem siblings_of_shows {parent : Option NodeId} {trees : List (MarkedTree τ)} {base : Nat}
    (shows : forest.Shows base (layoutAll parent none none base trees)) :
    forest.Siblings parent (firstOr none base trees) (lastOr none base trees) (rootIds base trees) :=
  ⟨(rootIds_head? base trees).symm, (getLast?_rootIds base trees).symm,
    linked_of_shows trees base none shows⟩

theorem postorder_trees {parent prev next : Option NodeId} {after : List NodeId}
    (trees : List (MarkedTree τ)) (base : Nat)
    (shows : forest.Shows base (layoutAll parent prev next base trees))
    (siblings : forest.Postorder next after) :
    forest.Postorder (firstOr next base trees) (List.range' base (sizeAll trees) ++ after) := by
  induction trees using trees_induction generalizing parent prev next base after with
  | nil => simpa using siblings
  | cons tree rest inner outer =>
      obtain ⟨shown, root, later⟩ := shows_cons.mp shows
      have below := inner base shown .nil
      rw [List.append_nil] at below
      have whole := Postorder.cons root below (outer (base + tree.size) later siblings)
      -- the ids of a tree are those below its root, and then the root
      have numbers : List.range' base tree.size =
          List.range' base (sizeAll tree.children) ++ [tree.rootId base] := by
        rw [tree.size_eq, List.range'_concat, rootId, Nat.one_mul]
      rw [firstOr_cons, sizeAll_cons, ← List.range'_append_1, numbers, List.append_assoc,
        List.append_assoc]
      exact whole

/-! ## Subtrees -/

/-- An id is the root of a subtree whose nodes end there. -/
structure Subtree (forest : Forest τ) (id : NodeId) (low : Nat) (tree : MarkedTree τ) : Prop where
  place : tree.rootId low = id
  root : ∃ parent prev next, forest.node id = .ok (rootNode parent prev next low tree)
  below : forest.Shows low (layoutAll (some id) none none low tree.children)
  sound : tree.Sound

/-- Every id that trees take up is the root of a subtree, and marked only if it is the root of one of
the trees. -/
theorem exists_subtree {parent prev next : Option NodeId} {id : Nat} (trees : List (MarkedTree τ))
    (base : Nat) (shows : forest.Shows base (layoutAll parent prev next base trees))
    (sound : ∀ tree ∈ trees, tree.Sound) (lower : base ≤ id) (upper : id < base + sizeAll trees) :
    ∃ low sub, forest.Subtree id low sub ∧
      (sub ∈ trees ∧ id ∈ rootIds base trees ∨ sub.bookmark = false) := by
  induction trees using trees_induction generalizing parent prev next base with
  | nil =>
      rw [sizeAll_nil] at upper
      omega
  | cons tree rest inner outer =>
      obtain ⟨below, root, later⟩ := shows_cons.mp shows
      have top : tree.Sound := sound tree (by simp)
      have place := tree.rootId_add_one base
      rw [sizeAll_cons, ← Nat.add_assoc] at upper
      rcases Nat.lt_trichotomy id (tree.rootId base) with under | here | behind
      · cases tree with
        | node tag start stop bookmark children =>
            cases top with
            | node forward underSound inside ordered =>
                obtain ⟨low, sub, subtree, place⟩ := inner base below underSound lower under
                refine ⟨low, sub, subtree, .inr ?_⟩
                rcases place with ⟨child, -⟩ | unmarked
                · exact (inside sub child).2.2
                · exact unmarked
      · subst here
        exact ⟨base, tree, ⟨rfl, ⟨_, _, _, root⟩, below, top⟩, .inl ⟨by simp, by simp [rootIds]⟩⟩
      · obtain ⟨low, sub, subtree, place⟩ := outer (base + tree.size) later
          (fun other member => sound other (by simp [member])) (by omega) upper
        refine ⟨low, sub, subtree, ?_⟩
        rcases place with ⟨member, named⟩ | unmarked
        · exact .inl ⟨by simp [member], by simp [rootIds, named]⟩
        · exact .inr unmarked

theorem exists_tree_of_mem {parent prev next : Option NodeId} {id : NodeId}
    (trees : List (MarkedTree τ)) (base : Nat)
    (shows : forest.Shows base (layoutAll parent prev next base trees))
    (member : id ∈ rootIds base trees) :
    ∃ tree ∈ trees, ∀ node, forest.node id = .ok node →
      node.start = tree.start ∧ node.stop = tree.stop := by
  induction trees generalizing base prev with
  | nil => cases member
  | cons tree rest ih =>
      obtain ⟨_, root, later⟩ := shows_cons.mp shows
      rcases List.mem_cons.mp member with rfl | further
      · refine ⟨tree, by simp, ?_⟩
        intro node found
        rw [root] at found
        cases found
        exact ⟨rfl, rfl⟩
      · obtain ⟨other, otherMember, same⟩ := ih _ later further
        exact ⟨other, by simp [otherMember], same⟩

theorem ordered_of_shows {parent prev next : Option NodeId} (trees : List (MarkedTree τ))
    (base : Nat) (shows : forest.Shows base (layoutAll parent prev next base trees))
    (ordered : trees.Pairwise fun a b => a.start ≤ b.start) :
    (rootIds base trees).Pairwise fun a b => ∀ left right, forest.node a = .ok left →
      forest.node b = .ok right → left.start ≤ right.start := by
  induction trees generalizing base prev with
  | nil => exact .nil
  | cons tree rest ih =>
      obtain ⟨_, root, later⟩ := shows_cons.mp shows
      obtain ⟨first, ordered⟩ := List.pairwise_cons.mp ordered
      refine List.pairwise_cons.mpr ⟨?_, ih _ later ordered⟩
      intro id member left right leftFound rightFound
      obtain ⟨other, otherMember, same⟩ := exists_tree_of_mem rest _ later member
      rw [root] at leftFound
      cases leftFound
      rw [(same right rightFound).1]
      exact first other otherMember

theorem Subtree.family {id : NodeId} {low : Nat} {tree : MarkedTree τ} {node : Node τ}
    (subtree : forest.Subtree id low tree) (found : forest.node id = .ok node) :
    forest.Family id node (rootIds low tree.children) := by
  obtain ⟨-, ⟨parent, prev, next, root⟩, below, sound⟩ := subtree
  rw [root] at found
  cases found
  cases sound with
  | node forward _ inside ordered =>
      refine ⟨siblings_of_shows below, ?_, ordered_of_shows _ low below ordered⟩
      intro child member node found
      obtain ⟨sub, subMember, same⟩ := exists_tree_of_mem _ low below member
      obtain ⟨starts, stops⟩ := same node found
      rw [starts, stops]
      exact ⟨(inside sub subMember).1, (inside sub subMember).2.1⟩

theorem Represents.wellFormed {trees : List (MarkedTree τ)} (represents : forest.Represents trees)
    (sound : ∀ tree ∈ trees, tree.Sound) : forest.WellFormed := by
  have shows := represents.shows
  have subtree : ∀ id node, forest.node id = .ok node →
      ∃ low sub, forest.Subtree id low sub ∧
        (sub ∈ trees ∧ id ∈ rootIds 0 trees ∨ sub.bookmark = false) := by
    intro id node found
    have live : id < sizeAll trees := by
      have inside := (represents.nodes.get_eq_ok).mp found
      rw [← length_layoutAll none none none 0 trees]
      exact (List.getElem?_eq_some_iff.mp inside).1
    exact exists_subtree trees 0 shows sound (Nat.zero_le id) (by rwa [Nat.zero_add])
  refine ⟨⟨rootIds 0 trees, ?_, ?_⟩, ?_, ?_, ?_, ?_⟩
  · rw [represents.head, represents.tail]
    exact siblings_of_shows shows
  · intro id node found marked
    obtain ⟨low, sub, ⟨-, ⟨parent, prev, next, root⟩, -, -⟩, place⟩ := subtree id node found
    rw [root] at found
    cases found
    rcases place with ⟨-, named⟩ | unmarked
    · exact named
    · rw [rootNode, unmarked] at marked
      cases marked
  · have whole := postorder_trees trees 0 shows .nil
    rwa [represents.head, represents.size_eq, List.range_eq_range', ← List.append_nil (List.range' _ _)]
  · intro id node found
    obtain ⟨low, sub, ⟨place, ⟨parent, prev, next, root⟩, below, -⟩, -⟩ := subtree id node found
    rw [root] at found
    cases found
    have inner := postorder_trees sub.children low below .nil
    rw [List.append_nil] at inner
    refine ⟨low, ?_, ?_⟩
    · rw [← place, rootId]
      exact Nat.le_add_right low _
    · rw [← place, rootId, Nat.add_sub_cancel_left]
      exact inner
  · intro id node found
    obtain ⟨low, sub, subtree, -⟩ := subtree id node found
    exact ⟨_, subtree.family found⟩
  · intro id node found
    obtain ⟨low, sub, ⟨-, ⟨parent, prev, next, root⟩, -, sound⟩, -⟩ := subtree id node found
    rw [root] at found
    cases found
    exact sound.forward

/-! ## A forest represents one list of trees -/

mutual

theorem eq_of_root {parent prev next parent' prev' next' : Option NodeId} {base : Nat} :
    ∀ tree tree' : MarkedTree τ, tree.rootId base = tree'.rootId base →
      forest.Shows base (layoutAll (some (tree.rootId base)) none none base tree.children) →
      forest.Shows base (layoutAll (some (tree'.rootId base)) none none base tree'.children) →
      forest.node (tree.rootId base) = .ok (rootNode parent prev next base tree) →
      forest.node (tree'.rootId base) = .ok (rootNode parent' prev' next' base tree') →
      tree = tree' ∧ next = next'
  | .node tag start stop bookmark children, .node tag' start' stop' bookmark' children', place, below,
      below', root, root' => by
      rw [place, root', Except.ok.injEq] at root
      simp only [rootNode, Node.mk.injEq, MarkedTree.tag, MarkedTree.start, MarkedTree.stop,
        MarkedTree.bookmark, MarkedTree.children] at root
      obtain ⟨rfl, rfl, rfl, rfl, -, -, rfl, first, -⟩ := root
      have same := eq_of_shows children children' first.symm below below'
      exact ⟨by rw [same], rfl⟩

/-- The links from the first root on determine the trees. -/
theorem eq_of_shows {parent prev parent' prev' : Option NodeId} {base : Nat} :
    ∀ trees trees' : List (MarkedTree τ), firstOr none base trees = firstOr none base trees' →
      forest.Shows base (layoutAll parent prev none base trees) →
      forest.Shows base (layoutAll parent' prev' none base trees') → trees = trees'
  | [], [], _, _, _ => rfl
  | [], _ :: _, first, _, _ => by simp at first
  | _ :: _, [], first, _, _ => by simp at first
  | tree :: rest, tree' :: rest', first, shows, shows' => by
      obtain ⟨below, root, later⟩ := shows_cons.mp shows
      obtain ⟨below', root', later'⟩ := shows_cons.mp shows'
      rw [firstOr_cons, firstOr_cons, Option.some_inj] at first
      obtain ⟨rfl, onward⟩ := eq_of_root tree tree' first below below' root root'
      rw [eq_of_shows rest rest' onward later later']

end

theorem Represents.unique {trees trees' : List (MarkedTree τ)} (represents : forest.Represents trees)
    (represents' : forest.Represents trees') : trees = trees' :=
  eq_of_shows trees trees' (represents.head.symm.trans represents'.head) represents.shows
    represents'.shows

/-! ## A well-formed forest represents trees -/

/-- Siblings that are reached with all that is below them, in the order of their ids, are the roots of
trees. -/
theorem Postorder.exists_trees
    (families : ∀ id node, forest.node id = .ok node → ∃ children, forest.Family id node children)
    {first : Option NodeId} {ids : List NodeId} (order : forest.Postorder first ids) :
    ∀ (base : Nat) (parent prev : Option NodeId) (siblings : List NodeId),
      ids = List.range' base ids.length → first = siblings.head? →
      forest.Linked parent prev siblings →
      ∃ trees : List (MarkedTree τ), sizeAll trees = ids.length ∧ rootIds base trees = siblings ∧
        forest.Shows base (layoutAll parent prev none base trees) := by
  induction order with
  | nil =>
      intro base parent prev siblings _ first _
      obtain rfl := List.head?_eq_none_iff.mp first.symm
      exact ⟨[], sizeAll_nil, rfl, trivial⟩
  | @cons id node below rest found _ _ children onward =>
      intro base parent prev siblings numbers first linked
      obtain ⟨siblings, rfl⟩ : ∃ later, siblings = id :: later :=
        List.head?_eq_some_iff.mp first.symm
      obtain ⟨⟨_, found', rfl, rfl, next⟩, linked⟩ := linked
      rw [found, Except.ok.injEq] at found'
      subst found'
      -- the ids below the first sibling, its own, and those of its siblings
      have parts : below ++ id :: rest = List.range' base below.length ++
          (base + below.length) :: List.range' (base + below.length + 1) rest.length := by
        rw [← List.range'_succ, List.range'_append_1, ← List.length_cons (a := id),
          ← List.length_append]
        exact numbers
      obtain ⟨inner, outer⟩ := List.append_inj parts (by simp)
      obtain ⟨place, later⟩ := List.cons.inj outer
      obtain ⟨kin, family⟩ := families id node found
      obtain ⟨under, underSize, underIds, underShows⟩ :=
        children base (some id) none kin inner family.siblings.first family.siblings.linked
      rw [← place] at later
      obtain ⟨others, size, ids, shows⟩ :=
        onward (id + 1) node.parent (some id) siblings later next linked
      let tree := MarkedTree.node node.tag node.start node.stop node.bookmark under
      have root : tree.rootId base = id := by
        rw [place, ← underSize]
        rfl
      have behind : base + tree.size = id + 1 := by rw [← tree.rootId_add_one, root]
      have same : rootNode node.parent node.prev (firstOr none (id + 1) others) base tree = node := by
        have firstChild : firstOr none base under = node.firstChild := by
          rw [← rootIds_head?, underIds, family.siblings.first]
        have lastChild : lastOr none base under = node.lastChild := by
          rw [← getLast?_rootIds, underIds, family.siblings.last]
        have nextRoot : firstOr none (id + 1) others = node.next := by
          rw [← rootIds_head?, ids, next]
        simp only [rootNode, tree, MarkedTree.tag, MarkedTree.start, MarkedTree.stop,
          MarkedTree.bookmark, MarkedTree.children, firstChild, lastChild, nextRoot]
      refine ⟨tree :: others, ?_, ?_, ?_⟩
      · rw [sizeAll_cons, MarkedTree.size_eq, size, List.length_append, List.length_cons, ← underSize]
        simp only [tree, MarkedTree.children]
        omega
      · rw [rootIds, root, behind, ids]
      · rw [shows_cons, root, behind, same]
        exact ⟨underShows, found, shows⟩

theorem WellFormed.represents {nodes : List (Node τ)} (wellFormed : forest.WellFormed)
    (stacked : forest.arena.Stacks nodes) : ∃ trees, forest.Represents trees := by
  obtain ⟨roots, ends, -⟩ := wellFormed.roots
  have order := wellFormed.postorder
  rw [List.range_eq_range'] at order
  obtain ⟨trees, size, ids, shows⟩ := order.exists_trees wellFormed.families 0 none none roots
    (by rw [List.length_range']) ends.first ends.linked
  rw [List.length_range'] at size
  have count : (layoutAll none none none 0 trees).length = nodes.length := by
    rw [length_layoutAll, size, Forest.size, stacked.size_eq]
  refine ⟨trees, ?_, ?_, ?_⟩
  · rw [shows.eq_of_stacks stacked count]
    exact stacked
  · rw [ends.first, ← rootIds_head?, ids]
  · rw [ends.last, ← getLast?_rootIds, ids]

end PegForest.Forest
