import PegForest.Proofs.Forest.Walk
import PegForest.Proofs.NestedList.Outline
import PegForest.Proofs.NestedList.Recognize

/-!
# Writing nested lists

A tree shows an outline over an input if it has a node for each word and list of the outline and the
words stand in the input where their nodes say.  The trees of a phrase show its outlines, and a tree
is written as the rendering of the outline that it shows.
-/

set_option autoImplicit false

namespace PegForest.NestedList

open MarkedTree

inductive Shows (source : Array UInt8) : MarkedTree Tag → Outline → Prop where
  | word {start stop : Nat} (w : Word) (inside : stop ≤ source.size)
      (covered : (source.extract start stop).toList = encodeAll w.letters) :
      Shows source (.node (some .word) start stop false []) (.word w)
  | list {start stop : Nat} {trees : List (MarkedTree Tag)} {items : List Outline}
      (shown : List.Forall₂ (Shows source) trees items) :
      Shows source (.node (some .list) start stop false trees) (.list items)

variable {source : Array UInt8}

theorem Phrase.shows {symbol : Symbol} (phrase : Phrase symbol) {cursor : Nat} {rest : List Char}
    (place : Before source cursor (phrase.text ++ rest)) :
    List.Forall₂ (Shows source) (phrase.trees cursor) phrase.outlines := by
  induction phrase generalizing cursor rest with
  | word w =>
      obtain ⟨inside, covered⟩ := place.extract ((word w).before_rest place)
      exact .cons (.word w inside covered) .nil
  | nested list ih => exact ih place
  | parens tail ih =>
      have later : Before source (cursor + 1) (tail.text ++ rest) := place.tail (by decide)
      exact .cons (.list (ih later)) .nil
  | close => exact .nil
  | last element ih =>
      rw [text, List.append_assoc] at place
      exact ih place
  | more element others ih ih' =>
      rw [text, List.append_assoc] at place
      have later : Before source (cursor + element.length) (',' :: (others.text ++ rest)) :=
        element.before_rest place
      exact List.rel_append (ih place) (ih' (later.tail (by decide)))

variable {forest : Forest Tag}

theorem mapM_write {depth : Nat} {ids : List NodeId} {trees : List (MarkedTree Tag)}
    {items : List Outline}
    (writes : ∀ id low tree item, forest.Subtree id low tree → Shows source tree item → id < depth →
      write forest source depth id = .ok item.render)
    (below : List.Forall₂ (fun id tree => id < depth ∧ ∃ low, forest.Subtree id low tree) ids trees)
    (shown : List.Forall₂ (Shows source) trees items) :
    ids.mapM (write forest source depth) = .ok (items.map Outline.render) := by
  apply Fault.mapM_of_forall₂
  induction below generalizing items with
  | nil =>
      cases shown
      exact .nil
  | cons here _ ih =>
      obtain ⟨smaller, low, subtree⟩ := here
      cases shown with
      | cons shows rest => exact .cons (writes _ low _ _ subtree shows smaller) (ih rest)

/-- Children have smaller ids than their parents, so an id is enough depth to write its node. -/
theorem write_eq {depth id low : Nat} {tree : MarkedTree Tag} {outline : Outline}
    (subtree : forest.Subtree id low tree) (shows : Shows source tree outline) (deep : id < depth) :
    write forest source depth id = .ok outline.render := by
  induction depth generalizing id low tree outline with
  | zero => cases deep
  | succ depth ih =>
      cases shows with
      | word w inside covered =>
          have text := subtree.text_eq inside
          obtain ⟨-, ⟨parent, prev, next, root⟩, -, -⟩ := subtree
          simp only [write, root, text, Fault.ok_bind, rootNode, MarkedTree.tag, MarkedTree.start,
            MarkedTree.stop, covered, Text.Utf8.decodeLossy_encodeAll, Fault.pure_eq_ok,
            Outline.render]
      | @list start stop trees items shown =>
          have children : forest.children id = .ok (rootIds low trees) := subtree.children_eq
          have pieces : (rootIds low trees).mapM (write forest source depth) =
              .ok (items.map Outline.render) := by
            refine mapM_write (fun _ _ _ _ => ih) (subtree.subtrees.imp ?_) shown
            intro child sub below
            exact ⟨Nat.lt_of_lt_of_le below.1 (Nat.le_of_lt_succ deep), below.2.2⟩
          obtain ⟨-, ⟨parent, prev, next, root⟩, -, -⟩ := subtree
          simp only [write, root, children, pieces, Fault.ok_bind, rootNode, MarkedTree.tag,
            Fault.pure_eq_ok, joinCommas_eq, Outline.render, Outline.renderAll_eq_map]

theorem serialize_eq {tree : MarkedTree Tag} {outline : Outline}
    (represents : forest.Represents [tree]) (sound : tree.Sound)
    (shows : Shows source tree outline) :
    serialize forest source = .ok (String.ofList outline.render) := by
  obtain ⟨root, low, roots, subtree⟩ := represents.root_singleton sound
  obtain ⟨parent, prev, next, found⟩ := subtree.root
  have deep : root < forest.size + 1 := Nat.lt_succ_of_lt (Forest.lt_size_of_node found)
  have written := write_eq subtree shows deep
  simp only [serialize, roots, Fault.ok_bind, List.mapM_cons, List.mapM_nil, written,
    Fault.pure_eq_ok, List.flatten_cons, List.flatten_nil, List.append_nil]

end PegForest.NestedList
