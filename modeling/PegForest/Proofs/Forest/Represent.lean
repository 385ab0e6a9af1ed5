import PegForest.Proofs.Arena.Stack
import PegForest.Proofs.Fault
import PegForest.Proofs.Forest.Layout

/-!
# Forests that represent trees

A forest represents a list of trees when its arena holds exactly their layout and its ends name the
first and the last root.  The trees then decide every field of every node.

The loops of a forest follow sibling links.  On a layout they visit the roots of the trees in order,
and a change that depends on the node alone is the layout of changed trees.
-/

set_option autoImplicit false

namespace PegForest

open MarkedTree

namespace Forest

variable {τ : Type}

/-- The forest is the layout of `trees`. -/
structure Represents (forest : Forest τ) (trees : List (MarkedTree τ)) : Prop where
  nodes : forest.arena.Stacks (layoutAll none none none 0 trees)
  head : forest.head = firstOr none 0 trees
  tail : forest.tail = lastOr none 0 trees

theorem Represents.size_eq {forest : Forest τ} {trees : List (MarkedTree τ)}
    (represents : forest.Represents trees) : forest.size = sizeAll trees := by
  rw [Forest.size, represents.nodes.size_eq, length_layoutAll]

theorem represents_empty {arena : Arena (Node τ)} (stacked : arena.Stacks []) :
    (empty arena).Represents [] :=
  ⟨by simpa [empty] using stacked, rfl, rfl⟩

theorem Represents.node_congr {forest other : Forest τ} {trees : List (MarkedTree τ)}
    (represents : forest.Represents trees) (represents' : other.Represents trees) (id : NodeId) :
    forest.node id = other.node id := by
  simp only [node, Arena.get, represents.nodes.get?, represents'.nodes.get?]

/-! ## Single nodes -/

theorem node_of_stacks {forest : Forest τ} {front back : List (Node τ)} {node : Node τ} {id : Nat}
    (stacked : forest.arena.Stacks (front ++ node :: back)) (place : front.length = id) :
    forest.node id = .ok node := by
  subst place
  exact stacked.get

theorem update_of_stacks {forest : Forest τ} {front back : List (Node τ)} {node : Node τ} {id : Nat}
    (stacked : forest.arena.Stacks (front ++ node :: back)) (place : front.length = id)
    (change : Node τ → Node τ) :
    ∃ arena, forest.update id change = .ok { forest with arena } ∧
      arena.Stacks (front ++ change node :: back) := by
  subst place
  have live : front.length < (front ++ node :: back).length := by simp
  obtain ⟨arena, changed, stacked', -⟩ := stacked.modify live change
  rw [Arena.modify_middle] at stacked'
  obtain ⟨old, head, tail, created, recycled⟩ := forest
  refine ⟨arena, ?_, stacked'⟩
  simp only at changed
  simp [update, changed]

theorem Represents.node_root {forest : Forest τ} {front back : List (MarkedTree τ)}
    {tree : MarkedTree τ} (represents : forest.Represents (front ++ tree :: back)) :
    forest.node (tree.rootId (sizeAll front)) =
      .ok (rootNode none (lastOr none 0 front) (firstOr none (sizeAll front + tree.size) back)
        (sizeAll front) tree) := by
  have nodes := represents.nodes
  rw [layoutAll_append, layoutAll_cons, Nat.zero_add, ← List.append_assoc] at nodes
  exact node_of_stacks nodes (by simp [rootId])

/-! ## Loops over siblings -/

theorem updateSiblings_layoutAll {parent parent' upto : Option NodeId} (change : Node τ → Node τ)
    (edit : MarkedTree τ → MarkedTree τ)
    (edited : ∀ prev next base tree,
      change (rootNode parent prev next base tree) = rootNode parent' prev next base (edit tree))
    (kept : ∀ tree, (edit tree).children = tree.children) :
    ∀ (trees : List (MarkedTree τ)) (steps base : Nat) (front back : List (Node τ))
      (prev : Option NodeId) (forest : Forest τ),
      trees.length ≤ steps → front.length = base →
      (∀ id, upto = some id → base + sizeAll trees ≤ id) →
      forest.arena.Stacks (front ++ (layoutAll parent prev upto base trees ++ back)) →
      ∃ arena,
        updateSiblings change upto steps (firstOr upto base trees) forest =
          .ok { forest with arena } ∧
        arena.Stacks (front ++ (layoutAll parent' prev upto base (trees.map edit) ++ back)) := by
  intro trees
  induction trees with
  | nil =>
      intro steps base front back prev forest _ _ _ stacked
      refine ⟨forest.arena, ?_, by simpa using stacked⟩
      cases upto with
      | none => cases steps <;> rfl
      | some id => cases steps <;> simp [updateSiblings]
  | cons tree rest ih =>
      intro steps base front back prev forest enough width apart stacked
      obtain ⟨steps, rfl⟩ : ∃ n, steps = n + 1 :=
        ⟨steps - 1, by simp only [List.length_cons] at enough; omega⟩
      rw [layoutAll_cons] at stacked
      set below := layoutAll (some (tree.rootId base)) none none base tree.children
      set root := rootNode parent prev (firstOr upto (base + tree.size) rest) base tree with rootDef
      have place : (front ++ below).length = tree.rootId base := by simp [below, rootId, width]
      have split : forest.arena.Stacks ((front ++ below) ++ root ::
          (layoutAll parent (some (tree.rootId base)) upto (base + tree.size) rest ++ back)) := by
        simpa using stacked
      -- The walk ends at `upto`, which lies behind all the trees and so is not this root.
      have distinct : some (tree.rootId base) ≠ upto := by
        intro same
        have far := apart _ same.symm
        have near := tree.rootId_add_one base
        simp only [sizeAll_cons] at far
        omega
      have found := node_of_stacks split place
      obtain ⟨arena, updated, changed⟩ := update_of_stacks split place change
      have longer : (front ++ below ++ [change root]).length = base + tree.size := by
        simp [below, size_eq, width]
      obtain ⟨arena', looped, others⟩ := ih steps (base + tree.size)
        (front ++ below ++ [change root]) back (some (tree.rootId base)) { forest with arena }
        (by simp only [List.length_cons] at enough; omega) longer
        (by
          intro id same
          have far := apart id same
          simp only [sizeAll_cons] at far
          omega)
        (by simpa using changed)
      refine ⟨arena', ?_, ?_⟩
      · simp only [firstOr_cons, updateSiblings, if_neg distinct, found, updated, Fault.ok_bind]
        exact looped
      · rw [List.map_cons, layoutAll_cons, rootId_edit kept, size_edit kept, kept, firstOr_map kept,
          ← edited, ← rootDef]
        simpa using others

/-! ## Nodes from a base on -/

/-- The nodes of the forest from an id on. -/
def Shows (forest : Forest τ) (base : Nat) : List (Node τ) → Prop
  | [] => True
  | node :: rest => forest.node base = .ok node ∧ forest.Shows (base + 1) rest

theorem shows_append {forest : Forest τ} {base : Nat} {front back : List (Node τ)} :
    forest.Shows base (front ++ back) ↔
      forest.Shows base front ∧ forest.Shows (base + front.length) back := by
  induction front generalizing base with
  | nil => simp [Shows]
  | cons node rest ih =>
      simp only [List.cons_append, Shows, ih, List.length_cons, and_assoc]
      rw [Nat.add_right_comm, Nat.add_assoc base]

theorem Shows.node {forest : Forest τ} {base i : Nat} {nodes : List (Node τ)} {node : Node τ}
    (shows : forest.Shows base nodes) (found : nodes[i]? = some node) :
    forest.node (base + i) = .ok node := by
  induction nodes generalizing base i with
  | nil => cases found
  | cons first rest ih =>
      cases i with
      | zero =>
          cases found
          exact shows.1
      | succ i =>
          have later := ih shows.2 found
          rwa [Nat.add_right_comm, Nat.add_assoc] at later

theorem Shows.eq_of_stacks {forest : Forest τ} {nodes nodes' : List (Node τ)}
    (shows : forest.Shows 0 nodes) (stacked : forest.arena.Stacks nodes')
    (count : nodes.length = nodes'.length) : nodes = nodes' := by
  refine List.ext_getElem count fun i inside inside' => ?_
  have found := shows.node (List.getElem?_eq_getElem inside)
  rw [Nat.zero_add] at found
  have held := stacked.get_eq_ok.mp found
  rw [List.getElem?_eq_getElem inside', Option.some_inj] at held
  exact held.symm

theorem shows_of_stacks {forest : Forest τ} {front back : List (Node τ)} {base : Nat}
    (stacked : forest.arena.Stacks (front ++ back)) (place : front.length = base) :
    forest.Shows base back := by
  induction back generalizing front base with
  | nil => trivial
  | cons node rest ih =>
      have stacked' : forest.arena.Stacks (front ++ [node] ++ rest) := by simpa using stacked
      exact ⟨node_of_stacks stacked place, ih stacked' (by simp [place])⟩

theorem Represents.shows {forest : Forest τ} {trees : List (MarkedTree τ)}
    (represents : forest.Represents trees) :
    forest.Shows 0 (layoutAll none none none 0 trees) := by
  have stacked : forest.arena.Stacks ([] ++ layoutAll none none none 0 trees) := represents.nodes
  exact shows_of_stacks stacked rfl

theorem shows_cons {forest : Forest τ} {parent prev next : Option NodeId} {base : Nat}
    {tree : MarkedTree τ} {rest : List (MarkedTree τ)} :
    forest.Shows base (layoutAll parent prev next base (tree :: rest)) ↔
      forest.Shows base (layoutAll (some (tree.rootId base)) none none base tree.children) ∧
      forest.node (tree.rootId base) =
        .ok (rootNode parent prev (firstOr next (base + tree.size) rest) base tree) ∧
      forest.Shows (base + tree.size)
        (layoutAll parent (some (tree.rootId base)) next (base + tree.size) rest) := by
  rw [layoutAll_cons, shows_append, Shows, length_layoutAll, ← rootId, rootId_add_one]

theorem siblingsFrom_of_shows {forest : Forest τ} {parent prev : Option NodeId}
    {trees : List (MarkedTree τ)} {steps base : Nat} (enough : trees.length ≤ steps)
    (shows : forest.Shows base (layoutAll parent prev none base trees)) :
    forest.siblingsFrom steps (firstOr none base trees) = .ok (rootIds base trees) := by
  induction trees generalizing steps base prev with
  | nil => cases steps <;> rfl
  | cons tree rest ih =>
      obtain ⟨steps, rfl⟩ := Nat.exists_eq_add_one_of_ne_zero (Nat.ne_zero_of_lt enough)
      obtain ⟨-, root, later⟩ := shows_cons.mp shows
      have others := ih (Nat.le_of_succ_le_succ enough) later
      simp only [siblingsFrom, firstOr_cons, root, Fault.ok_bind, rootNode, others, rootIds,
        Fault.pure_eq_ok]

/-! ## Links at the ends of a layout -/

/-- The root after a list of trees is named by the last root of the list alone. -/
theorem update_next_of_last {forest : Forest τ} {front back : List (Node τ)} {base last : Nat}
    {parent prev next : Option NodeId} {trees : List (MarkedTree τ)} (width : front.length = base)
    (stacked : forest.arena.Stacks (front ++ (layoutAll parent prev next base trees ++ back)))
    (place : lastOr none base trees = some last) (next' : Option NodeId) :
    ∃ arena, forest.update last (fun node => { node with next := next' }) =
        .ok { forest with arena } ∧
      arena.Stacks (front ++ (layoutAll parent prev next' base trees ++ back)) := by
  rcases List.eq_nil_or_concat' trees with rfl | ⟨init, tree, rfl⟩
  · simp at place
  · rw [lastOr_concat, Option.some_inj] at place
    set before := front ++ (layoutAll parent prev (some (tree.rootId (base + sizeAll init))) base init
      ++ layoutAll (some (tree.rootId (base + sizeAll init))) none none (base + sizeAll init)
        tree.children) with beforeDef
    have split : ∀ next, front ++ (layoutAll parent prev next base (init ++ [tree]) ++ back) =
        before ++ rootNode parent (lastOr prev base init) next (base + sizeAll init) tree :: back := by
      intro next
      rw [layoutAll_concat, beforeDef]
      simp only [List.append_assoc, List.singleton_append]
    have position : before.length = last := by
      rw [← place]
      simp [beforeDef, rootId, width, Nat.add_assoc]
    rw [split] at stacked ⊢
    exact update_of_stacks stacked position _

theorem update_prev_of_first {forest : Forest τ} {front back : List (Node τ)} {base first : Nat}
    {parent prev next : Option NodeId} {trees : List (MarkedTree τ)} (width : front.length = base)
    (stacked : forest.arena.Stacks (front ++ (layoutAll parent prev next base trees ++ back)))
    (place : firstOr none base trees = some first) (prev' : Option NodeId) :
    ∃ arena, forest.update first (fun node => { node with prev := prev' }) =
        .ok { forest with arena } ∧
      arena.Stacks (front ++ (layoutAll parent prev' next base trees ++ back)) := by
  cases trees with
  | nil => simp at place
  | cons tree rest =>
      rw [firstOr_cons, Option.some_inj] at place
      set before := front ++ layoutAll (some (tree.rootId base)) none none base tree.children
        with beforeDef
      set after := layoutAll parent (some (tree.rootId base)) next (base + tree.size) rest ++ back
        with afterDef
      have split : ∀ prev, front ++ (layoutAll parent prev next base (tree :: rest) ++ back) =
          before ++ rootNode parent prev (firstOr next (base + tree.size) rest) base tree :: after := by
        intro prev
        rw [layoutAll_cons, beforeDef, afterDef]
        simp only [List.append_assoc, List.cons_append]
      have position : before.length = first := by
        rw [← place]
        simp [beforeDef, rootId, width]
      rw [split] at stacked ⊢
      exact update_of_stacks stacked position _

/-! ## Watermarks -/

section Watermark

variable {forest : Forest τ} {old : List (MarkedTree τ)} {back : List (Node τ)}
  {next : Option NodeId}

theorem firstAfter_lastOr
    (stacked : forest.arena.Stacks (layoutAll none none next 0 old ++ back))
    (head : forest.head = firstOr next 0 old) :
    forest.firstAfter (lastOr none 0 old) = .ok next := by
  rcases List.eq_nil_or_concat' old with rfl | ⟨init, tree, rfl⟩
  · simpa [firstAfter] using head
  · rw [layoutAll_concat, List.append_assoc, List.singleton_append] at stacked
    have found := node_of_stacks stacked (by simp [rootId] : _ = tree.rootId (0 + sizeAll init))
    rw [lastOr_concat, firstAfter, found]
    rfl

theorem linkAfter_lastOr
    (stacked : forest.arena.Stacks (layoutAll none none next 0 old ++ back))
    (head : forest.head = firstOr next 0 old) (next' : Option NodeId) :
    ∃ arena, forest.linkAfter (lastOr none 0 old) next' =
        .ok { forest with arena, head := firstOr next' 0 old } ∧
      arena.Stacks (layoutAll none none next' 0 old ++ back) := by
  cases place : lastOr none 0 old with
  | none =>
      have none_old : old = [] := by
        by_contra some_old
        rw [lastOr_eq none 0 some_old] at place
        simp at place
      subst none_old
      exact ⟨forest.arena, rfl, stacked⟩
  | some last =>
      have stacked' : forest.arena.Stacks ([] ++ (layoutAll none none next 0 old ++ back)) := stacked
      obtain ⟨arena, updated, stacked'⟩ := update_next_of_last rfl stacked' place next'
      refine ⟨arena, ?_, stacked'⟩
      have some_old : old ≠ [] := by
        rintro rfl
        simp at place
      have sameHead : firstOr next' 0 old = forest.head := by
        rw [head]
        cases old with
        | nil => exact absurd rfl some_old
        | cons tree rest => rfl
      rw [linkAfter, updated, sameHead]

end Watermark

end Forest

end PegForest
