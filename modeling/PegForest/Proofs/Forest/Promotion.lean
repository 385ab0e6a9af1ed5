import PegForest.Proofs.Forest.Close
import PegForest.Proofs.Forest.Walk

/-!
# What promotion does to a forest

The trees after the watermark are folded from the left: a marked tree takes what the fold has made
of the trees before it in front of its children, and an unmarked tree follows them.  Every other
node is where it was.  Of what stands up to the watermark only the watermark is told what follows
it, and of what stands below the folded roots only the first child of a marked root is told what now
stands before it.
-/

set_option autoImplicit false

namespace PegForest

variable {τ : Type}

namespace MarkedTree

def adopt (start : Nat) (done : List (MarkedTree τ)) (tree : MarkedTree τ) : List (MarkedTree τ) :=
  if tree.bookmark then [(tree.precede done).resolve start] else done ++ [tree]

theorem promoteOnto_eq_foldl (start : Nat) (done trees : List (MarkedTree τ)) :
    promoteOnto start done trees = trees.foldl (adopt start) done := by
  induction trees generalizing done with
  | nil => rfl
  | cons tree rest ih =>
      rw [promoteOnto, List.foldl_cons, adopt]
      split
      · exact ih _
      · exact ih _

theorem size_resolve_precede (start : Nat) (done : List (MarkedTree τ)) (tree : MarkedTree τ) :
    ((tree.precede done).resolve start).size = sizeAll done + tree.size := by
  rw [size_eq, children_resolve, ← size_eq, size_precede]

theorem sizeAll_adopt (start : Nat) (done : List (MarkedTree τ)) (tree : MarkedTree τ) :
    sizeAll (adopt start done tree) = sizeAll done + tree.size := by
  unfold adopt
  split
  · rw [sizeAll_cons, sizeAll_nil, Nat.add_zero, size_resolve_precede]
  · rw [sizeAll_append, sizeAll_cons, sizeAll_nil, Nat.add_zero]

theorem sizeAll_foldl (start : Nat) (done trees : List (MarkedTree τ)) :
    sizeAll (trees.foldl (adopt start) done) = sizeAll done + sizeAll trees := by
  induction trees generalizing done with
  | nil => rfl
  | cons tree rest ih => rw [List.foldl_cons, ih, sizeAll_adopt, sizeAll_cons, Nat.add_assoc]

theorem foldl_adopt_last {start : Nat} {before after : List (MarkedTree τ)} {tree : MarkedTree τ}
    (marked : tree.bookmark = true) (plain : after.any bookmark = false) :
    (before ++ tree :: after).foldl (adopt start) [] =
      (tree.precede (before.foldl (adopt start) [])).resolve start :: after := by
  rw [List.foldl_append, List.foldl_cons, adopt, if_pos marked, ← promoteOnto_eq_foldl,
    promoteOnto_unmarked start _ after plain]
  rfl

theorem exists_last_marked {trees : List (MarkedTree τ)} (marked : trees.any bookmark = true) :
    ∃ before tree after, trees = before ++ tree :: after ∧ tree.bookmark = true ∧
      after.any bookmark = false := by
  induction trees with
  | nil => cases marked
  | cons tree rest ih =>
      by_cases later : rest.any bookmark = true
      · obtain ⟨before, last, after, rfl, here, plain⟩ := ih later
        exact ⟨tree :: before, last, after, rfl, here, plain⟩
      · rw [Bool.not_eq_true] at later
        rw [List.any_cons, later, Bool.or_false] at marked
        exact ⟨[], tree, rest, rfl, marked, later⟩

/-! ## Trees at their places -/

/-- Something holds of each of the trees that are written from a base on. -/
def EachTree (P : Nat → MarkedTree τ → Prop) : (base : Nat) → List (MarkedTree τ) → Prop
  | _, [] => True
  | base, tree :: rest => P base tree ∧ EachTree P (base + tree.size) rest

section EachTree

variable {P Q : Nat → MarkedTree τ → Prop} {base id : Nat} {trees : List (MarkedTree τ)}

theorem eachTree_append {front back : List (MarkedTree τ)} :
    EachTree P base (front ++ back) ↔
      EachTree P base front ∧ EachTree P (base + sizeAll front) back := by
  induction front generalizing base with
  | nil => simp [EachTree]
  | cons tree rest ih =>
      simp only [List.cons_append, EachTree, ih, sizeAll_cons, Nat.add_assoc, and_assoc]

theorem EachTree.and (each : EachTree P base trees) (each' : EachTree Q base trees) :
    EachTree (fun base tree => P base tree ∧ Q base tree) base trees := by
  induction trees generalizing base with
  | nil => trivial
  | cons tree rest ih => exact ⟨⟨each.1, each'.1⟩, ih each.2 each'.2⟩

theorem EachTree.mono (each : EachTree P base trees)
    (goesOn : ∀ place tree, tree ∈ trees → base ≤ place → place + tree.size ≤ base + sizeAll trees →
      P place tree → Q place tree) : EachTree Q base trees := by
  induction trees generalizing base with
  | nil => trivial
  | cons tree rest ih =>
      rw [sizeAll_cons] at goesOn
      refine ⟨goesOn base tree List.mem_cons_self (Nat.le_refl _) (by omega) each.1, ?_⟩
      refine ih each.2 fun place other member lower upper => ?_
      exact goesOn place other (List.mem_cons_of_mem _ member) (by omega) (by omega)

theorem EachTree.exists_at (each : EachTree P base trees) (lower : base ≤ id)
    (upper : id < base + sizeAll trees) :
    ∃ place tree, P place tree ∧ tree.rootId place ∈ rootIds base trees ∧ place ≤ id ∧
      id ≤ tree.rootId place := by
  induction trees generalizing base with
  | nil => exact absurd upper (Nat.not_lt.mpr lower)
  | cons tree rest ih =>
      have root := tree.rootId_add_one base
      by_cases here : id ≤ tree.rootId base
      · exact ⟨base, tree, each.1, List.mem_cons_self, lower, here⟩
      · rw [sizeAll_cons] at upper
        obtain ⟨place, other, holds, member, inside⟩ := ih each.2 (by omega) (by omega)
        exact ⟨place, other, holds, List.mem_cons_of_mem _ member, inside⟩

theorem EachTree.exists_root (each : EachTree P base trees) (member : id ∈ rootIds base trees) :
    ∃ place tree, P place tree ∧ tree.rootId place = id := by
  induction trees generalizing base with
  | nil => cases member
  | cons tree rest ih =>
      rcases List.mem_cons.mp member with rfl | later
      · exact ⟨base, tree, each.1, rfl⟩
      · exact ih each.2 later

end EachTree

end MarkedTree

namespace Forest

open MarkedTree

variable {forest forest' : Forest τ} {base id start stop : Nat} {node : Node τ}
  {parent prev prev' next next' : Option NodeId} {tree : MarkedTree τ}
  {trees old new done : List (MarkedTree τ)}

/-! ## Layouts that differ at an end -/

theorem node_congr_of_shows {nodes : List (Node τ)} (shows : forest.Shows base nodes)
    (shows' : forest'.Shows base nodes) (lower : base ≤ id) (upper : id < base + nodes.length) :
    forest'.node id = forest.node id := by
  have found : nodes[id - base]? = some nodes[id - base] := List.getElem?_eq_getElem (by omega)
  have place := Nat.add_sub_cancel' lower
  rw [← place, shows.node found, shows'.node found]

theorem node_congr_of_prev (shows : forest.Shows base (layoutAll parent prev next base trees))
    (shows' : forest'.Shows base (layoutAll parent prev' next base trees)) (lower : base ≤ id)
    (upper : id < base + sizeAll trees) (other : firstOr none base trees ≠ some id) :
    forest'.node id = forest.node id := by
  cases trees with
  | nil => exact absurd upper (Nat.not_lt.mpr lower)
  | cons tree rest =>
      obtain ⟨below, -, later⟩ := shows_cons.mp shows
      obtain ⟨below', -, later'⟩ := shows_cons.mp shows'
      have root := tree.rootId_add_one base
      rw [sizeAll_cons] at upper
      rw [firstOr_cons, ne_eq, Option.some_inj] at other
      rw [rootId] at root other
      by_cases early : id < base + sizeAll tree.children
      · exact node_congr_of_shows below below' lower (by rwa [length_layoutAll])
      · exact node_congr_of_shows later later' (by omega) (by rw [length_layoutAll]; omega)

theorem first_of_prev (shows : forest.Shows base (layoutAll parent prev next base trees))
    (shows' : forest'.Shows base (layoutAll parent prev' next base trees))
    (first : firstOr none base trees = some id) (found : forest.node id = .ok node) :
    forest'.node id = .ok { node with prev := prev' } := by
  cases trees with
  | nil => cases first
  | cons tree rest =>
      obtain ⟨-, root, -⟩ := shows_cons.mp shows
      obtain ⟨-, root', -⟩ := shows_cons.mp shows'
      rw [firstOr_cons, Option.some_inj] at first
      subst first
      rw [root] at found
      cases found
      exact root'

theorem node_congr_of_next (shows : forest.Shows base (layoutAll parent prev next base trees))
    (shows' : forest'.Shows base (layoutAll parent prev next' base trees)) (lower : base ≤ id)
    (upper : id < base + sizeAll trees) (other : lastOr none base trees ≠ some id) :
    forest'.node id = forest.node id := by
  rcases List.eq_nil_or_concat' trees with rfl | ⟨init, last, rfl⟩
  · exact absurd upper (Nat.not_lt.mpr lower)
  · have root := last.rootId_add_one (base + sizeAll init)
    rw [layoutAll_concat, shows_append] at shows shows'
    rw [lastOr_concat, ne_eq, Option.some_inj] at other
    rw [sizeAll_append, sizeAll_cons, sizeAll_nil, Nat.add_zero] at upper
    refine node_congr_of_shows shows.1 shows'.1 lower ?_
    rw [List.length_append, length_layoutAll, length_layoutAll]
    rw [rootId] at root other
    omega

theorem last_of_next (shows : forest.Shows base (layoutAll parent prev next base trees))
    (shows' : forest'.Shows base (layoutAll parent prev next' base trees))
    (last : lastOr none base trees = some id) (found : forest.node id = .ok node) :
    forest'.node id = .ok { node with next := next' } := by
  rcases List.eq_nil_or_concat' trees with rfl | ⟨init, tree, rfl⟩
  · cases last
  · rw [layoutAll_concat, shows_append, List.length_append, length_layoutAll, length_layoutAll,
      ← Nat.add_assoc, ← rootId] at shows shows'
    rw [lastOr_concat, Option.some_inj] at last
    subst last
    rw [shows.2.1] at found
    cases found
    exact shows'.2.1

/-! ## Trees after the fold -/

/-- The nodes of the tree are there, wherever it hangs. -/
def Hangs (forest : Forest τ) (base : Nat) (tree : MarkedTree τ) : Prop :=
  ∃ parent prev next, forest.Shows base (layout parent prev next base tree)

/-- The nodes of the tree are there, and its root has lost its mark and adopted other trees. -/
def Grown (forest : Forest τ) (start stop base : Nat) (tree : MarkedTree τ) : Prop :=
  ∃ before parent prev next firstChild lastChild,
    forest.Shows base (layoutAll (some (tree.rootId base)) before none base tree.children) ∧
    forest.node (tree.rootId base) = .ok { rootNode parent prev next base tree with
      start, stop, bookmark := false, firstChild, lastChild }

theorem hangs_of_shows (shows : forest.Shows base (layoutAll parent prev next base trees)) :
    EachTree forest.Hangs base trees := by
  induction trees generalizing base prev with
  | nil => trivial
  | cons tree rest ih =>
      rw [layoutAll, shows_append, length_layout] at shows
      exact ⟨⟨_, _, _, shows.1⟩, ih shows.2⟩

theorem Represents.hangs (represents : forest.Represents (old ++ new)) :
    EachTree forest.Hangs (sizeAll old) new := by
  have each := hangs_of_shows represents.shows
  rw [eachTree_append, Nat.zero_add] at each
  exact each.2

/-- A tree that has adopted others, taken apart again. -/
theorem Hangs.grown
    (hangs : forest.Hangs base (((tree.precede done).resolve start).widen stop)) :
    EachTree forest.Hangs base done ∧ forest.Grown start stop (base + sizeAll done) tree := by
  obtain ⟨parent, prev, next, shows⟩ := hangs
  have place : (((tree.precede done).resolve start).widen stop).rootId base =
      tree.rootId (base + sizeAll done) := by
    rw [rootId, children_widen, children_resolve, ← rootId, rootId_precede]
  rw [layout_eq, place, children_widen, children_resolve, children_precede, layoutAll_append,
    shows_append, shows_append, length_layoutAll, List.length_append, length_layoutAll,
    length_layoutAll, ← Nat.add_assoc, ← rootId] at shows
  obtain ⟨⟨adopted, below⟩, root, -⟩ := shows
  refine ⟨hangs_of_shows adopted, lastOr none base done, parent, prev, next,
    firstOr none base (done ++ tree.children), lastOr none base (done ++ tree.children), below, ?_⟩
  rw [root]
  cases tree
  rfl

/-- What becomes of the trees that are folded; `stopOf` says where a marked tree ends. -/
def Folded (forest : Forest τ) (start : Nat) (stopOf : Nat → MarkedTree τ → Nat) (base : Nat)
    (tree : MarkedTree τ) : Prop :=
  (tree.bookmark = false → forest.Hangs base tree) ∧
    (tree.bookmark = true → forest.Grown start (stopOf base tree) base tree)

theorem folded_of_foldl (rest : List (MarkedTree τ))
    (each : EachTree forest.Hangs base (rest.foldl (adopt start) done)) :
    EachTree forest.Hangs base done ∧
      EachTree (forest.Folded start fun _ tree => tree.stop) (base + sizeAll done) rest := by
  induction rest generalizing done with
  | nil => exact ⟨each, trivial⟩
  | cons tree rest ih =>
      -- The fold goes from left to right, so the last step says what became of the trees before it.
      rw [List.foldl_cons] at each
      obtain ⟨here, later⟩ := ih each
      rw [sizeAll_adopt, ← Nat.add_assoc] at later
      unfold adopt at here
      by_cases marked : tree.bookmark = true
      · rw [if_pos marked] at here
        have same : (tree.precede done).resolve start =
            ((tree.precede done).resolve start).widen tree.stop := by
          cases tree
          rfl
        rw [same] at here
        obtain ⟨adopted, grown⟩ := here.1.grown
        exact ⟨adopted, ⟨fun plain => absurd marked (Bool.not_eq_true _ ▸ plain), fun _ => grown⟩,
          later⟩
      · rw [if_neg marked, eachTree_append] at here
        exact ⟨here.1, ⟨fun _ => here.2.1, fun other => absurd other marked⟩, later⟩

def stopWith (promoted : Option NodeId) (stop base : Nat) (tree : MarkedTree τ) : Nat :=
  if promoted = some (tree.rootId base) then stop else tree.stop

theorem Represents.folded {before after : List (MarkedTree τ)}
    (represents : forest.Represents (old ++
      ((before ++ tree :: after).foldl (adopt start) []).modifyHead (widen stop)))
    (marked : tree.bookmark = true) (plain : after.any bookmark = false) :
    EachTree (forest.Folded start
      (stopWith (some (tree.rootId (sizeAll old + sizeAll before))) stop)) (sizeAll old)
      (before ++ tree :: after) := by
  have each := represents.hangs
  rw [foldl_adopt_last marked plain, List.modifyHead_cons] at each
  obtain ⟨whole, follow⟩ := each
  obtain ⟨adopted, grown⟩ := whole.grown
  obtain ⟨-, folded⟩ := folded_of_foldl before adopted
  rw [MarkedTree.size_eq, children_widen, ← MarkedTree.size_eq, size_resolve_precede] at follow
  rw [sizeAll_foldl, sizeAll_nil, Nat.zero_add] at grown follow
  rw [sizeAll_nil, Nat.add_zero] at folded
  rw [← Nat.add_assoc] at follow
  refine eachTree_append.mpr ⟨folded.mono ?_, ?_, follow.mono ?_⟩
  · intro place other _ _ upper becomes
    have root := other.rootId_add_one place
    have apart :
        ¬some (tree.rootId (sizeAll old + sizeAll before)) = some (other.rootId place) := by
      rw [Option.some_inj, rootId]
      omega
    rw [Folded, stopWith, if_neg apart]
    exact becomes
  · rw [Folded, stopWith, if_pos rfl]
    exact ⟨fun other => absurd marked (Bool.not_eq_true _ ▸ other), fun _ => grown⟩
  · intro place other member _ _ hangs
    have unmarked : other.bookmark = false := by
      simpa using List.any_eq_false.mp plain other member
    exact ⟨fun _ => hangs, fun marked => absurd marked (Bool.not_eq_true _ ▸ unmarked)⟩

/-! ## Nodes before and after -/

/-- What promotion does to the nodes; `roots` are the roots behind the watermark. -/
structure Relinks (forest : Forest τ) (watermark : Option NodeId) (roots : List NodeId)
    (start stop : Nat) (promoted : Option NodeId) (forest' : Forest τ) : Prop where
  /-- A node is as it was if it is not the watermark, no root behind it, and not the first child of
  a marked root behind it. -/
  kept : ∀ id node, forest.node id = .ok node → watermark ≠ some id → id ∉ roots →
    (∀ root ∈ roots, ∀ above, forest.node root = .ok above → above.bookmark = true →
      above.firstChild ≠ some id) → forest'.node id = .ok node
  mark : ∀ id node, watermark = some id → forest.node id = .ok node →
    ∃ next, forest'.node id = .ok { node with next }
  child : ∀ root ∈ roots, ∀ above id node, forest.node root = .ok above → above.bookmark = true →
    above.firstChild = some id → forest.node id = .ok node →
    ∃ prev, forest'.node id = .ok { node with prev }
  plain : ∀ root ∈ roots, ∀ node, forest.node root = .ok node → node.bookmark = false →
    ∃ parent prev next, forest'.node root = .ok { node with parent, prev, next }
  /-- A marked root begins at the start, loses its mark and has other children before its own; the
  promoted one ends at the stop. -/
  marked : ∀ root ∈ roots, ∀ node, forest.node root = .ok node → node.bookmark = true →
    ∃ parent prev next firstChild lastChild, forest'.node root = .ok { node with
      start, stop := if promoted = some root then stop else node.stop, bookmark := false,
      parent, prev, next, firstChild, lastChild }

theorem Hangs.root (hangs : forest.Hangs base tree) :
    ∃ parent prev next,
      forest.node (tree.rootId base) = .ok (rootNode parent prev next base tree) := by
  obtain ⟨parent, prev, next, shows⟩ := hangs
  rw [layout_eq, shows_append, length_layoutAll, ← rootId] at shows
  exact ⟨parent, prev, next, shows.2.1⟩

theorem Hangs.children (hangs : forest.Hangs base tree) :
    forest.Shows base (layoutAll (some (tree.rootId base)) none none base tree.children) := by
  obtain ⟨parent, prev, next, shows⟩ := hangs
  rw [layout_eq, shows_append] at shows
  exact shows.1

theorem exists_hanging {P : Nat → MarkedTree τ → Prop}
    (each : EachTree (fun base tree => forest.Hangs base tree ∧ P base tree) base trees)
    (member : id ∈ rootIds base trees) (found : forest.node id = .ok node) :
    ∃ place tree parent prev next, tree.rootId place = id ∧
      node = rootNode parent prev next place tree ∧ forest.Hangs place tree ∧ P place tree := by
  obtain ⟨place, tree, ⟨hangs, holds⟩, rfl⟩ := each.exists_root member
  obtain ⟨parent, prev, next, root⟩ := hangs.root
  rw [root] at found
  cases found
  exact ⟨place, tree, parent, prev, next, rfl, rfl, hangs, holds⟩

theorem Represents.shows_old (represents : forest.Represents (old ++ new)) :
    forest.Shows 0 (layoutAll none none (firstOr none (sizeAll old) new) 0 old) := by
  have shows := represents.shows
  rw [layoutAll_append, shows_append, Nat.zero_add] at shows
  exact shows.1

theorem relinks_of_folded {new' : List (MarkedTree τ)} {promoted : Option NodeId}
    (represents : forest.Represents (old ++ new)) (represents' : forest'.Represents (old ++ new'))
    (folded : EachTree (forest'.Folded start (stopWith promoted stop)) (sizeAll old) new) :
    forest.Relinks (lastOr none 0 old) (rootIds (sizeAll old) new) start stop promoted forest' := by
  have each := represents.hangs.and folded
  have shows := represents.shows_old
  have shows' := represents'.shows_old
  refine ⟨?_, ?_, ?_, ?_, ?_⟩
  · intro id node found notMark notRoot notChild
    -- an id is below the watermark, or inside one of the trees behind it
    by_cases early : id < sizeAll old
    · rw [node_congr_of_next shows shows' (Nat.zero_le _) (by rwa [Nat.zero_add]) notMark]
      exact found
    · have live := lt_size_of_node found
      rw [represents.size_eq, sizeAll_append] at live
      obtain ⟨place, tree, ⟨hangs, folded⟩, member, lower, upper⟩ :=
        each.exists_at (Nat.le_of_not_lt early) live
      have below : id < place + sizeAll tree.children :=
        Nat.lt_of_le_of_ne upper fun same => notRoot (same ▸ member)
      rw [← found]
      cases marked : tree.bookmark with
      | false =>
          exact node_congr_of_shows hangs.children (folded.1 marked).children lower
            (by rwa [length_layoutAll])
      | true =>
          obtain ⟨parent, prev, next, root⟩ := hangs.root
          obtain ⟨before, -, -, -, -, -, children', -⟩ := folded.2 marked
          exact node_congr_of_prev hangs.children children' lower below
            (notChild _ member _ root marked)
  · intro id node isMark found
    exact ⟨_, last_of_next shows shows' isMark found⟩
  · intro root member above id node found marked first foundChild
    obtain ⟨place, tree, parent, prev, next, rfl, rfl, hangs, folded⟩ :=
      exists_hanging each member found
    obtain ⟨before, -, -, -, -, -, children', -⟩ := folded.2 marked
    exact ⟨before, first_of_prev hangs.children children' first foundChild⟩
  · intro root member node found plain
    obtain ⟨place, tree, parent, prev, next, rfl, rfl, hangs, folded⟩ :=
      exists_hanging each member found
    exact (folded.1 plain).root
  · intro root member node found marked
    obtain ⟨place, tree, parent, prev, next, rfl, rfl, hangs, folded⟩ :=
      exists_hanging each member found
    obtain ⟨-, parent', prev', next', firstChild, lastChild, -, root'⟩ := folded.2 marked
    exact ⟨parent', prev', next', firstChild, lastChild, root'⟩

/-! ## The walk -/

theorem promoteFrom_unmarked (watermark : Option NodeId) (start : Nat)
    (shows : forest.Shows base (layoutAll parent prev none base trees))
    (unmarked : trees.any bookmark = false) {steps : Nat} (enough : trees.length ≤ steps)
    (promoted : Option NodeId) :
    forest.promoteFrom watermark start steps (firstOr none base trees) promoted =
      .ok (promoted, forest) := by
  induction trees generalizing base prev steps with
  | nil => cases steps <;> rfl
  | cons tree rest ih =>
      obtain ⟨steps, rfl⟩ := Nat.exists_eq_add_one_of_ne_zero (Nat.ne_zero_of_lt enough)
      obtain ⟨-, root, later⟩ := shows_cons.mp shows
      rw [List.any_cons, Bool.or_eq_false_iff] at unmarked
      simp only [firstOr_cons, promoteFrom, root, Fault.ok_bind, rootNode, unmarked.1,
        Bool.false_eq_true, if_false]
      exact ih later unmarked.2 (Nat.le_of_succ_le_succ enough)

/-- What promotion makes of the trees `new` behind the watermark, the last of `old`. -/
structure Promotes (forest : Forest τ) (old new : List (MarkedTree τ)) (start stop : Nat)
    (promoted : Option NodeId) (forest' : Forest τ) : Prop where
  idle : new.any bookmark = false → promoted = none ∧ forest' = forest
  folds : new.any bookmark = true →
    forest'.Represents (old ++ (new.foldl (adopt start) []).modifyHead (widen stop))
  /-- The first tree of the result is the last marked tree; its root is named. -/
  last : ∀ before tree after, new = before ++ tree :: after → tree.bookmark = true →
    after.any bookmark = false →
    promoted = some (tree.rootId (sizeAll old + sizeAll before)) ∧
    new.foldl (adopt start) [] =
      (tree.precede (before.foldl (adopt start) [])).resolve start :: after
  relinks :
    forest.Relinks (lastOr none 0 old) (rootIds (sizeAll old) new) start stop promoted forest'
  size : forest'.size = forest.size
  tail : forest'.tail = forest.tail
  head : old ≠ [] → forest'.head = forest.head
  counts : forest'.created = forest.created ∧ forest'.recycled = forest.recycled

theorem sizeAll_widen_head (stop : Nat) (trees : List (MarkedTree τ)) :
    sizeAll (trees.modifyHead (widen stop)) = sizeAll trees := by
  cases trees with
  | nil => rfl
  | cons tree rest =>
      rw [List.modifyHead_cons, sizeAll_cons, sizeAll_cons, MarkedTree.size_eq, children_widen,
        ← MarkedTree.size_eq]

theorem lastOr_congr {trees' : List (MarkedTree τ)} (count : sizeAll trees' = sizeAll trees) :
    lastOr none base trees' = lastOr none base trees := by
  by_cases empty : trees = []
  · subst empty
    rw [sizeAll_nil, sizeAll_eq_zero] at count
    rw [count]
  · have some_tree : trees' ≠ [] := by
      rintro rfl
      exact empty (sizeAll_eq_zero.mp (count.symm.trans sizeAll_nil))
    rw [lastOr_eq none base empty, lastOr_eq none base some_tree, count]

theorem firstOr_folded {before after : List (MarkedTree τ)} (marked : tree.bookmark = true)
    (plain : after.any bookmark = false) :
    firstOr none base (((before ++ tree :: after).foldl (adopt start) []).modifyHead (widen stop)) =
      some (tree.rootId (base + sizeAll before)) := by
  rw [foldl_adopt_last marked plain, List.modifyHead_cons, firstOr_cons, rootId, children_widen,
    children_resolve, ← rootId, rootId_precede, sizeAll_foldl, sizeAll_nil, Nat.zero_add]

theorem Represents.promotes_idle (represents : forest.Represents (old ++ new))
    (unmarked : new.any bookmark = false) (start stop : Nat) :
    forest.promote (lastOr none 0 old) start stop = .ok (none, forest) ∧
      forest.Promotes old new start stop none forest := by
  have shows := represents.shows
  have nodes := represents.nodes
  have head := represents.head
  rw [layoutAll_append, shows_append, length_layoutAll, Nat.zero_add] at shows
  rw [layoutAll_append, Nat.zero_add] at nodes
  rw [firstOr_append, Nat.zero_add] at head
  have first := firstAfter_lastOr nodes head
  have enough : new.length ≤ forest.size := by
    have counted := represents.length_le_size
    rw [List.length_append] at counted
    omega
  have walked := promoteFrom_unmarked (lastOr none 0 old) start shows.2 unmarked enough none
  have plain : ∀ tree ∈ new, tree.bookmark = false := by simpa using List.any_eq_false.mp unmarked
  have folded : EachTree (forest.Folded start (stopWith none stop)) (sizeAll old) new := by
    refine represents.hangs.mono fun place tree member _ _ hangs => ⟨fun _ => hangs, ?_⟩
    intro marked
    rw [plain tree member] at marked
    cases marked
  refine ⟨?_, ?_⟩
  · rw [Forest.promote, first, Fault.ok_bind, walked]
    rfl
  · refine ⟨fun _ => ⟨rfl, rfl⟩, ?_, ?_, relinks_of_folded represents represents folded, rfl, rfl,
      fun _ => rfl, rfl, rfl⟩
    · intro marked
      rw [unmarked] at marked
      cases marked
    · rintro before tree after rfl marked _
      rw [plain tree (by simp)] at marked
      cases marked

theorem Represents.promotes_marked (represents : forest.Represents (old ++ new))
    (marked : new.any bookmark = true) (start stop : Nat) :
    ∃ promoted forest', forest.promote (lastOr none 0 old) start stop = .ok (promoted, forest') ∧
      forest.Promotes old new start stop promoted forest' := by
  obtain ⟨forest', ran, represents', counts⟩ := represents.promote start stop
  have all : promoteAll start stop new = (new.foldl (adopt start) []).modifyHead (widen stop) := by
    rw [promoteAll, if_pos marked, promoteOnto_eq_foldl]
  have count : sizeAll (old ++ (new.foldl (adopt start) []).modifyHead (widen stop)) =
      sizeAll (old ++ new) := by
    rw [sizeAll_append, sizeAll_widen_head, sizeAll_foldl, sizeAll_nil, Nat.zero_add,
      sizeAll_append]
  rw [if_pos marked, all] at ran
  rw [all] at represents'
  refine ⟨_, forest', ran, ?_, fun _ => represents', ?_, ?_, ?_, ?_, ?_, counts⟩
  · intro unmarked
    rw [unmarked] at marked
    cases marked
  · rintro before tree after rfl here plain
    exact ⟨firstOr_folded here plain, foldl_adopt_last here plain⟩
  · obtain ⟨before, tree, after, rfl, here, plain⟩ := exists_last_marked marked
    rw [firstOr_folded here plain]
    exact relinks_of_folded represents represents' (represents'.folded here plain)
  · rw [represents.size_eq, represents'.size_eq, count]
  · rw [represents.tail, represents'.tail, lastOr_congr count]
  · intro some_old
    obtain ⟨tree, rest, rfl⟩ := List.exists_cons_of_ne_nil some_old
    rw [represents.head, represents'.head]
    rfl

/-! ## Well-formed forests -/

theorem exists_split (member : id ∈ rootIds base trees) :
    ∃ front back, trees = front ++ back ∧ lastOr none base front = some id := by
  induction trees generalizing base with
  | nil => cases member
  | cons tree rest ih =>
      rcases List.mem_cons.mp member with rfl | later
      · exact ⟨[tree], rest, rfl, rfl⟩
      · obtain ⟨front, back, rfl, last⟩ := ih later
        have some_front : front ≠ [] := by
          rintro rfl
          cases last
        refine ⟨tree :: front, back, rfl, ?_⟩
        rw [lastOr, lastOr_of_ne_nil _ none _ some_front, last]

/-- On a well-formed forest, behind a root or from the first root on, promotion is a fold from the
left over the trees and leaves all other nodes alone. -/
theorem promote_folds {nodes : List (Node τ)} {watermark : Option NodeId}
    (stacked : forest.arena.Stacks nodes) (wellFormed : forest.WellFormed)
    (isRoot : ∀ mark, watermark = some mark → ∃ roots, forest.roots = .ok roots ∧ mark ∈ roots)
    (start stop : Nat) :
    ∃ old new promoted forest', forest.Represents (old ++ new) ∧ lastOr none 0 old = watermark ∧
      forest.promote watermark start stop = .ok (promoted, forest') ∧
      forest.Promotes old new start stop promoted forest' := by
  obtain ⟨trees, represents⟩ := wellFormed.represents stacked
  obtain ⟨old, new, rfl, rfl⟩ : ∃ old new, trees = old ++ new ∧ lastOr none 0 old = watermark := by
    cases watermark with
    | none => exact ⟨[], trees, rfl, rfl⟩
    | some mark =>
        obtain ⟨roots, listed, member⟩ := isRoot mark rfl
        rw [represents.roots_eq] at listed
        cases listed
        exact exists_split member
  refine ⟨old, new, ?_⟩
  cases marked : new.any bookmark with
  | false =>
      obtain ⟨ran, promotes⟩ := represents.promotes_idle marked start stop
      exact ⟨none, forest, represents, rfl, ran, promotes⟩
  | true =>
      obtain ⟨promoted, forest', ran, promotes⟩ := represents.promotes_marked marked start stop
      exact ⟨promoted, forest', represents, rfl, ran, promotes⟩

def operand (place : Nat) : MarkedTree Nat :=
  .node (some 1) place (place + 1) false []

def operator : MarkedTree Nat :=
  .node (some 2) 2 4 true [operand 3]

theorem sound_operand (place : Nat) : (operand place).Sound :=
  .node (Nat.le_succ place) (List.forall_mem_nil _) (List.forall_mem_nil _) .nil

theorem sound_operator : operator.Sound :=
  .node (by decide) (List.forall_mem_singleton.mpr (sound_operand 3))
    (List.forall_mem_singleton.mpr ⟨by decide, by decide, rfl⟩) (List.pairwise_singleton _ _)

theorem promote_folds_operator :
    ∃ (forest : Forest Nat) (nodes : List (Node Nat)), forest.arena.Stacks nodes ∧
      forest.WellFormed ∧ forest.roots = .ok [0, 1, 3] ∧
      ∃ old new promoted forest', forest.Represents (old ++ new) ∧ lastOr none 0 old = some 0 ∧
        forest.promote (some 0) 1 9 = .ok (promoted, forest') ∧
        forest.Promotes old new 1 9 promoted forest' := by
  have empty : (Forest.empty (Arena.empty 2)).Represents ([] ++ [] : List (MarkedTree Nat)) :=
    represents_empty (Arena.stacks_empty 2 (by decide))
  obtain ⟨forest, -, represents, -⟩ := empty.close (some 1) 0 1 false
  have one : forest.Represents ([operand 0] ++ []) := represents
  obtain ⟨forest, -, represents, -⟩ := one.close (some 1) 1 2 false
  have two : forest.Represents ([operand 0, operand 1] ++ []) := represents
  obtain ⟨forest, -, represents, -⟩ := two.close (some 1) 3 4 false
  have three : forest.Represents ([operand 0, operand 1] ++ [operand 3]) := represents
  obtain ⟨forest, -, represents, -⟩ := three.close (some 2) 2 4 true
  have chain : forest.Represents [operand 0, operand 1, operator] := represents
  have wellFormed : forest.WellFormed := by
    refine chain.wellFormed ?_
    simp only [List.forall_mem_cons]
    exact ⟨sound_operand 0, sound_operand 1, sound_operator, List.forall_mem_nil _⟩
  have roots : forest.roots = .ok [0, 1, 3] := by
    rw [chain.roots_eq]
    simp [rootIds, rootId, MarkedTree.size_eq, operand, operator, MarkedTree.children]
  refine ⟨forest, _, chain.nodes, wellFormed, roots, promote_folds chain.nodes wellFormed ?_ 1 9⟩
  rintro mark ⟨⟩
  exact ⟨_, roots, List.mem_cons_self⟩

end Forest

end PegForest
