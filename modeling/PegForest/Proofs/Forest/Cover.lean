import PegForest.Proofs.Forest.Promote

/-!
# What trees cover

In a sound tree no range ends before it starts, children lie inside their parent and begin in order,
and only the root may be marked.  `Covers low high trees` says that sound trees lie between two
offsets and begin in order, and that a marked tree begins only after all trees before it have ended.

Siblings may overlap: after promotion the last marked tree is widened over the trees that follow it.
Those trees carry no mark, so the last condition survives, and it is what keeps adopted children
inside the tree that adopts them.
-/

set_option autoImplicit false

namespace PegForest.MarkedTree

variable {τ : Type}

inductive Sound : MarkedTree τ → Prop where
  | node {tag : Option τ} {start stop : Nat} {bookmark : Bool} {children : List (MarkedTree τ)}
      (forward : start ≤ stop) (below : ∀ child ∈ children, child.Sound)
      (inside : ∀ child ∈ children,
        start ≤ child.start ∧ child.stop ≤ stop ∧ child.bookmark = false)
      (ordered : children.Pairwise fun a b => a.start ≤ b.start) :
      Sound (.node tag start stop bookmark children)

structure Covers (low high : Nat) (trees : List (MarkedTree τ)) : Prop where
  sound : ∀ tree ∈ trees, tree.Sound
  inside : ∀ tree ∈ trees, low ≤ tree.start ∧ tree.stop ≤ high
  ordered : trees.Pairwise fun a b => a.start ≤ b.start ∧ (b.bookmark = true → a.stop ≤ b.start)

theorem Sound.forward {tree : MarkedTree τ} (sound : tree.Sound) : tree.start ≤ tree.stop := by
  cases sound with
  | node forward _ _ _ => exact forward

theorem Covers.nil (low high : Nat) : Covers low high ([] : List (MarkedTree τ)) :=
  ⟨by simp, by simp, List.Pairwise.nil⟩

theorem Covers.append {low mid high : Nat} {front back : List (MarkedTree τ)}
    (first : Covers low mid front) (second : Covers mid high back) (forward : low ≤ mid)
    (onward : mid ≤ high) : Covers low high (front ++ back) := by
  refine ⟨?_, ?_, ?_⟩
  · intro tree member
    rcases List.mem_append.mp member with early | late
    · exact first.sound tree early
    · exact second.sound tree late
  · intro tree member
    rcases List.mem_append.mp member with early | late
    · have := first.inside tree early
      omega
    · have := second.inside tree late
      omega
  · refine List.pairwise_append.mpr ⟨first.ordered, second.ordered, ?_⟩
    intro a early b late
    have ends := first.inside a early
    have begins := second.inside b late
    have := (first.sound a early).forward
    exact ⟨by omega, fun _ => by omega⟩

/-! ## Closing -/

@[simp] theorem start_unmark (tree : MarkedTree τ) : tree.unmark.start = tree.start := by
  cases tree
  rfl

@[simp] theorem stop_unmark (tree : MarkedTree τ) : tree.unmark.stop = tree.stop := by
  cases tree
  rfl

@[simp] theorem bookmark_unmark (tree : MarkedTree τ) : tree.unmark.bookmark = false := by
  cases tree
  rfl

theorem Sound.unmark {tree : MarkedTree τ} (sound : tree.Sound) : tree.unmark.Sound := by
  cases sound with
  | node forward below inside ordered => exact .node forward below inside ordered

theorem Covers.close {low high : Nat} {trees : List (MarkedTree τ)} (covers : Covers low high trees)
    (forward : low ≤ high) (tag : Option τ) (bookmark : Bool) :
    Covers low high [.node tag low high bookmark (trees.map MarkedTree.unmark)] := by
  have sound : Sound (.node tag low high bookmark (trees.map MarkedTree.unmark)) := by
    refine .node forward ?_ ?_ ?_
    · intro child member
      obtain ⟨tree, old, rfl⟩ := List.mem_map.mp member
      exact (covers.sound tree old).unmark
    · intro child member
      obtain ⟨tree, old, rfl⟩ := List.mem_map.mp member
      simpa using covers.inside tree old
    · rw [List.pairwise_map]
      exact covers.ordered.imp fun both => by simpa using both.1
  refine ⟨?_, ?_, List.pairwise_singleton _ _⟩
  · intro tree member
    rwa [List.mem_singleton.mp member]
  · intro tree member
    rw [List.mem_singleton.mp member]
    exact ⟨Nat.le_refl low, Nat.le_refl high⟩

/-! ## Promoting -/

@[simp] theorem start_resolve (start : Nat) (tree : MarkedTree τ) :
    (tree.resolve start).start = start := by
  cases tree
  rfl

@[simp] theorem stop_resolve (start : Nat) (tree : MarkedTree τ) :
    (tree.resolve start).stop = tree.stop := by
  cases tree
  rfl

@[simp] theorem bookmark_resolve (start : Nat) (tree : MarkedTree τ) :
    (tree.resolve start).bookmark = false := by
  cases tree
  rfl

@[simp] theorem stop_precede (before : List (MarkedTree τ)) (tree : MarkedTree τ) :
    (tree.precede before).stop = tree.stop := by
  cases tree
  rfl

/-- What was done is unmarked and ends before the adopting tree begins, so it fits in front of the
children of that tree. -/
theorem Sound.adopt {low : Nat} {done : List (MarkedTree τ)} {tree : MarkedTree τ}
    (sound : tree.Sound) (lower : low ≤ tree.start) (before : Covers low tree.start done)
    (unmarked : ∀ other ∈ done, other.bookmark = false) :
    ((tree.precede done).resolve low).Sound := by
  cases sound with
  | node forward below inside ordered =>
      simp only [MarkedTree.start] at lower before
      refine .node (by omega) ?_ ?_ ?_
      · intro child member
        rcases List.mem_append.mp member with early | late
        · exact before.sound child early
        · exact below child late
      · intro child member
        rcases List.mem_append.mp member with early | late
        · have ends := before.inside child early
          exact ⟨ends.1, by omega, unmarked child early⟩
        · obtain ⟨starts, ends, plain⟩ := inside child late
          exact ⟨by omega, ends, plain⟩
      · refine List.pairwise_append.mpr ⟨before.ordered.imp And.left, ordered, ?_⟩
        intro a early b late
        have ends := before.inside a early
        have starts := inside b late
        have := (before.sound a early).forward
        omega

theorem Covers.adopt {low high : Nat} {done rest : List (MarkedTree τ)} {tree : MarkedTree τ}
    (covers : Covers low high (done ++ tree :: rest)) (marked : tree.bookmark = true)
    (unmarked : ∀ other ∈ done, other.bookmark = false) :
    Covers low high ((tree.precede done).resolve low :: rest) := by
  obtain ⟨sound, inside, ordered⟩ := covers
  obtain ⟨orderedDone, orderedRest, across⟩ := List.pairwise_append.mp ordered
  obtain ⟨first, orderedRest⟩ := List.pairwise_cons.mp orderedRest
  have here : tree ∈ done ++ tree :: rest := by simp
  have before : Covers low tree.start done := by
    refine ⟨fun other member => sound other (by simp [member]), ?_, orderedDone⟩
    intro other member
    exact ⟨(inside other (by simp [member])).1, (across other member tree (by simp)).2 marked⟩
  refine ⟨?_, ?_, List.pairwise_cons.mpr ⟨?_, orderedRest⟩⟩
  · intro other member
    rcases List.mem_cons.mp member with rfl | later
    · exact (sound tree here).adopt (inside tree here).1 before unmarked
    · exact sound other (by simp [later])
  · intro other member
    rcases List.mem_cons.mp member with rfl | later
    · simpa using (inside tree here).2
    · exact inside other (by simp [later])
  · intro other later
    simpa using ⟨(inside other (by simp [later])).1, (first other later).2⟩

theorem Covers.promoteOnto {low high : Nat} (rest done : List (MarkedTree τ))
    (covers : Covers low high (done ++ rest)) (unmarked : ∀ tree ∈ done, tree.bookmark = false) :
    Covers low high (promoteOnto low done rest) ∧
      ∀ tree ∈ MarkedTree.promoteOnto low done rest, tree.bookmark = false := by
  induction rest generalizing done with
  | nil => exact ⟨by simpa [MarkedTree.promoteOnto] using covers, unmarked⟩
  | cons tree rest ih =>
      simp only [MarkedTree.promoteOnto]
      cases marked : tree.bookmark with
      | true => exact ih _ (covers.adopt marked unmarked) (by simp)
      | false =>
          refine ih _ (by simpa using covers) ?_
          intro other member
          rcases List.mem_append.mp member with early | here
          · exact unmarked other early
          · rwa [List.mem_singleton.mp here]

theorem Covers.widen {low high : Nat} {tree : MarkedTree τ} {rest : List (MarkedTree τ)}
    (covers : Covers low high (tree :: rest)) (unmarked : ∀ other ∈ rest, other.bookmark = false) :
    Covers low high (tree.widen high :: rest) := by
  obtain ⟨sound, inside, ordered⟩ := covers
  obtain ⟨first, orderedRest⟩ := List.pairwise_cons.mp ordered
  have outer := sound tree (by simp)
  have place := inside tree (by simp)
  refine ⟨?_, ?_, List.pairwise_cons.mpr ⟨?_, orderedRest⟩⟩
  · intro other member
    rcases List.mem_cons.mp member with rfl | later
    · cases outer with
      | node forward below within sorted =>
          simp only [MarkedTree.start, MarkedTree.stop] at place
          refine .node (by omega) below ?_ sorted
          intro child member
          obtain ⟨starts, ends, plain⟩ := within child member
          exact ⟨starts, by omega, plain⟩
    · exact sound other (by simp [later])
  · intro other member
    rcases List.mem_cons.mp member with rfl | later
    · cases tree
      exact ⟨place.1, Nat.le_refl high⟩
    · exact inside other (by simp [later])
  · intro other later
    refine ⟨?_, fun marked => by simp [unmarked other later] at marked⟩
    cases tree
    exact (first other later).1

theorem Covers.promoteAll {low high : Nat} {trees : List (MarkedTree τ)}
    (covers : Covers low high trees) : Covers low high (promoteAll low high trees) := by
  unfold MarkedTree.promoteAll
  split
  · obtain ⟨folded, unmarked⟩ := Covers.promoteOnto trees [] covers (by simp)
    cases shape : MarkedTree.promoteOnto low [] trees with
    | nil => exact Covers.nil low high
    | cons tree rest =>
        rw [shape] at folded unmarked
        exact folded.widen fun other member => unmarked other (by simp [member])
  · exact covers

end PegForest.MarkedTree
