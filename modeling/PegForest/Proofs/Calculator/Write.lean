import PegForest.Language.Calculator.Render
import PegForest.Proofs.Calculator.Phrase
import PegForest.Proofs.Forest.Walk

/-!
# Writing phrases

The tree of a phrase is written as the s-expression of the phrase.  Children have smaller ids than
their parents, so an id is enough depth to write the node it belongs to.
-/

set_option autoImplicit false

namespace PegForest.Calculator

open MarkedTree

def leafText (tokens : Array Token) (source : Array UInt8) (place : Nat) : List Char :=
  Text.Utf8.decodeLossyFrom none
    (match tokens[place]? with
    | none => []
    | some token => (source.extract token.start token.stop).toList)

variable {forest : Forest Tag} {tokens : Array Token} {source : Array UInt8}

/-- A tree is written as a text wherever it stands in the forest. -/
def Writes (forest : Forest Tag) (tokens : Array Token) (source : Array UInt8)
    (tree : MarkedTree Tag) (text : List Char) : Prop :=
  ∀ depth id low, forest.Subtree id low tree → id < depth →
    writeNode forest tokens source depth id = .ok text

theorem writes_leaf {tag : Tag} (leaf : tag.operator? = none) (start length : Nat) :
    Writes forest tokens source (Phrase.spanning tag start length []) (leafText tokens source start) := by
  intro depth id low subtree deep
  obtain ⟨depth, rfl⟩ := Nat.exists_eq_add_one_of_ne_zero (Nat.ne_zero_of_lt deep)
  obtain ⟨-, ⟨parent, prev, next, root⟩, -, -⟩ := subtree
  simp only [writeNode, root, Fault.ok_bind, rootNode, Phrase.spanning, MarkedTree.tag,
    Option.bind_some, leaf, Fault.pure_eq_ok]
  rfl

theorem writes_operator {tag : Tag} {operator : String} (named : tag.operator? = some operator)
    {children : List (MarkedTree Tag)} {texts : List (List Char)}
    (writes : List.Forall₂ (Writes forest tokens source) children texts) (start length : Nat) :
    Writes forest tokens source (Phrase.spanning tag start length children)
      (Phrase.applied operator texts) := by
  intro depth id low subtree deep
  obtain ⟨depth, rfl⟩ := Nat.exists_eq_add_one_of_ne_zero (Nat.ne_zero_of_lt deep)
  have found : forest.children id = .ok (rootIds low children) := subtree.children_eq
  have written : (rootIds low children).mapM (writeNode forest tokens source depth) = .ok texts :=
    subtree.mapM_children (Nat.le_of_lt_succ deep) (writes.imp fun _ _ here => here depth)
  obtain ⟨-, ⟨parent, prev, next, root⟩, -, -⟩ := subtree
  simp only [writeNode, root, found, written, Fault.ok_bind, rootNode, Phrase.spanning, MarkedTree.tag,
    Option.bind_some, named, Fault.pure_eq_ok]
  rfl

theorem writes_phrase {l : Level} (phrase : Phrase l) (start : Nat) :
    Writes forest tokens source (phrase.tree start)
      (phrase.written (leafText tokens source) start) := by
  induction phrase generalizing start with
  | number => exact writes_leaf rfl start 1
  | name => exact writes_leaf rfl start 1
  | parens _ ih => exact ih (start + 1)
  | plain _ ih => exact ih start
  | unsigned _ ih => exact ih start
  | factor _ ih => exact ih start
  | term _ ih => exact ih start
  | increment _ ih => exact writes_operator rfl (.cons (ih start) .nil) start _
  | decrement _ ih => exact writes_operator rfl (.cons (ih start) .nil) start _
  | negate _ ih => exact writes_operator rfl (.cons (ih (start + 1)) .nil) start _
  | multiply _ _ ih ih' => exact writes_operator rfl (.cons (ih _) (.cons (ih' _) .nil)) start _
  | divide _ _ ih ih' => exact writes_operator rfl (.cons (ih _) (.cons (ih' _) .nil)) start _
  | add _ _ ih ih' => exact writes_operator rfl (.cons (ih _) (.cons (ih' _) .nil)) start _
  | subtract _ _ ih ih' => exact writes_operator rfl (.cons (ih _) (.cons (ih' _) .nil)) start _

end PegForest.Calculator
