import PegForest.Proofs.Forest.Preorder
import PegForest.Proofs.Forest.Promotion
import PegForest.Proofs.Session

/-!
# Rewinding to any checkpoint

A checkpoint may be older than the last reset, and its root may have been taken back since, its id
given to another node, or the node adopted by a later one.  Rewinding looks at the id alone.  If it is
that of a root, the forest is cut after this root, whatever the checkpoint was taken for, and if it is
not, the rewind is refused.
-/

set_option autoImplicit false

namespace PegForest

namespace Forest

open MarkedTree

variable {τ : Type} {forest after : Forest τ}

/-- The forest `after` is `forest` up to and including the root `last`, or empty without one. -/
structure CutAfter (forest : Forest τ) (last : Option NodeId) (after : Forest τ) : Prop where
  kept : ∃ roots roots' trees trees', forest.roots = .ok (roots ++ roots') ∧
    forest.freeze = .ok (trees ++ trees') ∧ after.roots = .ok roots ∧ after.freeze = .ok trees ∧
    roots.length = trees.length ∧ roots.getLast? = last
  head : after.head = last.bind fun _ => forest.head
  tail : after.tail = last
  size : after.size = last.elim 0 (· + 1)
  /-- No node is changed, but nothing follows the last root. -/
  nodes : ∀ id < after.size, ∃ node, forest.node id = .ok node ∧
    after.node id = .ok (if last = some id then { node with next := none } else node)
  created : after.created = forest.created
  recycled : ∃ removed, forest.size = after.size + removed ∧
    after.recycled = forest.recycled + removed

theorem sizeAll_of_last {last : Option NodeId} {trees : List (MarkedTree τ)}
    (ends : lastOr none 0 trees = last) : sizeAll trees = last.elim 0 (· + 1) := by
  rcases List.eq_nil_or_concat' trees with rfl | ⟨init, tree, rfl⟩
  · subst ends
    rfl
  · rw [lastOr_concat, Nat.zero_add] at ends
    subst ends
    rw [sizeAll_append, sizeAll_cons, sizeAll_nil, Nat.add_zero, Option.elim_some, rootId_add_one]

theorem firstOr_of_last {last : Option NodeId} {keep : List (MarkedTree τ)}
    (ends : lastOr none 0 keep = last) (drop : List (MarkedTree τ)) :
    firstOr none 0 keep = last.bind fun _ => firstOr none 0 (keep ++ drop) := by
  cases keep with
  | nil =>
      subst ends
      rfl
  | cons tree rest =>
      rw [lastOr_eq none 0 (List.cons_ne_nil tree rest)] at ends
      subst ends
      rfl

theorem Represents.cutAfter {last : Option NodeId} {keep drop : List (MarkedTree τ)}
    (represents : forest.Represents (keep ++ drop)) (represents' : after.Represents keep)
    (ends : lastOr none 0 keep = last) (created : after.created = forest.created)
    (recycled : after.recycled = forest.recycled + sizeAll drop) : forest.CutAfter last after := by
  have old := represents.shows_old
  constructor
  · refine ⟨rootIds 0 keep, rootIds (0 + sizeAll keep) drop, bareAll keep, bareAll drop, ?_, ?_,
      represents'.roots_eq, represents'.freeze_eq, ?_, ?_⟩
    · rw [represents.roots_eq, rootIds_append]
    · rw [represents.freeze_eq, bareAll_append]
    · rw [length_rootIds, length_bareAll]
    · rw [getLast?_rootIds, ends]
  · rw [represents'.head, represents.head]
    exact firstOr_of_last ends drop
  · rw [represents'.tail, ends]
  · rw [represents'.size_eq, sizeAll_of_last ends]
  · intro id inside
    rw [represents'.size_eq] at inside
    have live : id < (layoutAll none none none 0 (keep ++ drop)).length := by
      rw [length_layoutAll, sizeAll_append]
      omega
    have found := represents.nodes.get_eq_ok.mpr (List.getElem?_eq_getElem live)
    refine ⟨_, found, ?_⟩
    by_cases here : last = some id
    · rw [if_pos here]
      exact last_of_next old represents'.shows (ends.trans here) found
    · rw [if_neg here, node_congr_of_next old represents'.shows (Nat.zero_le id)
        (by rwa [Nat.zero_add]) (by rwa [ends])]
      exact found
  · exact created
  · refine ⟨sizeAll drop, ?_, recycled⟩
    rw [represents.size_eq, represents'.size_eq, sizeAll_append]

end Forest

namespace Session

variable {α τ : Type} [Atom α]

/-- Rewinding to any checkpoint whatsoever is refused exactly if the checkpoint names a node that is
no root, and otherwise cuts what was built and what was stored. -/
theorem rewind_anywhere {capacity : Nat} {start ctx : Context τ} {steps : List (Step α τ)}
    (opened : Context.tree capacity = .ok start) (reached : run steps start = .ok ctx)
    (point : Checkpoint) :
    ∃ forest roots refs, ctx.forest = some forest ∧ forest.roots = .ok roots ∧
      ctx.refs = some refs ∧
      (∀ fault, ctx.rewind point = .error fault ↔
        ∃ id, point.tail = some id ∧ id ∉ roots ∧ fault = .notTopLevel id) ∧
      ∀ ctx', ctx.rewind point = .ok ctx' → ∃ after refs', ctx'.forest = some after ∧
        forest.CutAfter point.tail after ∧ ctx'.refs = some refs' ∧
        refs'.entries.toList <+: refs.entries.toList ∧ refs'.size = min refs.size point.mark := by
  have fresh : Fresh true start := .tree capacity opened
  obtain ⟨refs, trees, tracks⟩ := tracks_run reached fresh.tracks
  cases tracks with
  | @tree forest log represents _ =>
      refine ⟨forest, MarkedTree.rootIds 0 trees, ⟨refs.toArray⟩, rfl, represents.roots_eq, rfl, ?_⟩
      -- The forest alone decides whether the rewind is refused; the store can always be cut.
      rcases represents.recycleTo point.tail with
        ⟨keep, drop, after, cut, ran, represents', created, recycled⟩ | ⟨mark, named, absent, lost⟩
      · obtain ⟨log', rewinds⟩ := Context.rewind_forest ran
        rw [rewinds, Option.map_some, Context.restore_toArray]
        constructor
        · intro fault
          constructor
          · intro refused
            cases refused
          · intro ⟨id, named, absent, _⟩
            rw [named] at cut
            exact absurd cut.mem_rootIds absent
        · intro ctx' returned
          cases returned
          obtain ⟨rfl, ends⟩ := cut
          refine ⟨after, _, rfl, represents.cutAfter represents' ends created recycled, rfl, ?_, ?_⟩
          · exact List.take_prefix point.mark refs
          · simp only [Backrefs.size, List.size_toArray, List.length_take, Nat.min_comm]
      · have refused : Context.rewind ⟨some ⟨refs.toArray⟩, some forest, log⟩ point =
            .error (.notTopLevel mark) := by
          simp only [Context.rewind, lost, Fault.error_bind]
        rw [refused]
        constructor
        · intro fault
          constructor
          · intro same
            cases same
            exact ⟨mark, named, absent, rfl⟩
          · intro ⟨id, named', _, same⟩
            rw [named, Option.some_inj] at named'
            rw [same, named']
        · intro ctx' returned
          cases returned

/-- A checkpoint from before a reset, with an id that another root has now. -/
theorem rewind_anywhere_reused :
    ∃ start ctx : Context Nat, Context.tree 2 = .ok start ∧
      run [.matching adopting, .reset, .storeRef "n" ⟨0, 1⟩, .matching adopting,
        .matching adopting] start = .ok ctx ∧
      ∃ forest roots refs, ctx.forest = some forest ∧ forest.roots = .ok roots ∧
        ctx.refs = some refs ∧
        (∀ fault, ctx.rewind ⟨some 1, 0⟩ = .error fault ↔
          ∃ id, some 1 = some id ∧ id ∉ roots ∧ fault = .notTopLevel id) ∧
        ∀ ctx', ctx.rewind ⟨some 1, 0⟩ = .ok ctx' → ∃ after refs', ctx'.forest = some after ∧
          forest.CutAfter (some 1) after ∧ ctx'.refs = some refs' ∧
          refs'.entries.toList <+: refs.entries.toList ∧ refs'.size = min refs.size 0 := by
  have returns : (run [.matching adopting, .reset, .storeRef "n" ⟨0, 1⟩, .matching adopting,
      .matching adopting] smallTree).toBool = true := by decide +kernel
  obtain ⟨ctx, reached⟩ := Fault.exists_of_toBool returns
  exact ⟨_, ctx, opened_smallTree, reached, rewind_anywhere opened_smallTree reached ⟨some 1, 0⟩⟩

end Session

end PegForest
