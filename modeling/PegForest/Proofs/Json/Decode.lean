import PegForest.Language.Json.Value
import PegForest.Proofs.Forest.Walk

/-!
# Decoding trees

Decoding walks the nodes of a forest.  On a forest that represents trees it never stops, and the
value it finds is the value of the tree itself.
-/

set_option autoImplicit false

namespace PegForest.Json

open MarkedTree

def keyOf (source : Array UInt8) (tree : MarkedTree Tag) : String :=
  unescape (source.extract tree.start tree.stop).toList

mutual

def valueOf (source : Array UInt8) : MarkedTree Tag → Value
  | .node tag start stop _ children =>
      match tag with
      | none => .null
      | some .null => .null
      | some .true => .bool .true
      | some .false => .bool .false
      | some .number =>
          .number ((Decimal.read? (source.extract start stop).toList).getD .nan)
      | some .string => .string (unescape (source.extract start stop).toList)
      | some .array => .array (valuesOf source children)
      | some .object => .object (membersOf source children)
      | some .member => .object [memberOf source children]

def valuesOf (source : Array UInt8) : List (MarkedTree Tag) → List Value
  | [] => []
  | tree :: rest => valueOf source tree :: valuesOf source rest

def membersOf (source : Array UInt8) : List (MarkedTree Tag) → List (String × Value)
  | [] => []
  | .node _ _ _ _ children :: rest => memberOf source children :: membersOf source rest

def memberOf (source : Array UInt8) : List (MarkedTree Tag) → String × Value
  | [] => ("", .null)
  | [key] => (keyOf source key, .null)
  | key :: value :: _ => (keyOf source key, valueOf source value)

end

theorem valuesOf_eq_map (source : Array UInt8) (trees : List (MarkedTree Tag)) :
    valuesOf source trees = trees.map (valueOf source) := by
  induction trees with
  | nil => simp [valuesOf]
  | cons tree rest ih => simp [valuesOf, ih]

theorem membersOf_eq_map (source : Array UInt8) (trees : List (MarkedTree Tag)) :
    membersOf source trees = trees.map fun tree => memberOf source tree.children := by
  induction trees with
  | nil => simp [membersOf]
  | cons tree rest ih =>
      cases tree
      simp [membersOf, ih, children]

variable {forest : Forest Tag} {source : Array UInt8}

/-- What `decode` does on the subtrees of a member is all that decoding the member needs. -/
theorem decodeMember_eq {decode : NodeId → Except Fault Value} {id low : Nat}
    {tree : MarkedTree Tag} (subtree : forest.Subtree id low tree) (inside : tree.stop ≤ source.size)
    (decodes : ∀ child low sub, child < id → forest.Subtree child low sub → sub.stop ≤ source.size →
      decode child = .ok (valueOf source sub)) :
    decodeMember forest source decode id = .ok (memberOf source tree.children) := by
  have below := subtree.subtrees
  rw [decodeMember, subtree.children_eq, Fault.ok_bind]
  generalize rootIds low tree.children = ids at below
  generalize tree.children = trees at below
  cases below with
  | nil => simp [memberOf]
  | cons key rest =>
      obtain ⟨-, keyInside, keyLow, keyTree⟩ := key
      have text := keyTree.text_eq (Nat.le_trans keyInside inside)
      cases rest with
      | nil => simp [text, memberOf, keyOf]
      | cons value _ =>
          obtain ⟨smaller, valueInside, valueLow, valueTree⟩ := value
          have decoded := decodes _ valueLow _ smaller valueTree (Nat.le_trans valueInside inside)
          simp [text, decoded, memberOf, keyOf]

/-- The fuel of decoding is an id: children have smaller ids than their parents. -/
theorem decodeAt_eq {depth id low : Nat} {tree : MarkedTree Tag}
    (subtree : forest.Subtree id low tree) (inside : tree.stop ≤ source.size) (deep : id < depth) :
    decodeAt forest source depth id = .ok (valueOf source tree) := by
  induction depth generalizing id low tree with
  | zero => cases deep
  | succ depth ih =>
      have text := subtree.text_eq inside
      have children := subtree.children_eq
      have elements : (rootIds low tree.children).mapM (decodeAt forest source depth) =
          .ok (tree.children.map (valueOf source)) := by
        refine Fault.mapM_of_forall₂ (subtree.subtrees.imp ?_)
        rintro child sub ⟨smaller, within, low, below⟩
        exact ih below (Nat.le_trans within inside) (by omega)
      have members : (rootIds low tree.children).mapM
          (decodeMember forest source (decodeAt forest source depth)) =
          .ok (tree.children.map fun sub => memberOf source sub.children) := by
        refine Fault.mapM_of_forall₂ (subtree.subtrees.imp ?_)
        rintro child sub ⟨smaller, within, low, below⟩
        refine decodeMember_eq below (Nat.le_trans within inside) ?_
        intro grandchild _ _ deeper below' within'
        exact ih below' within' (by omega)
      have member : decodeMember forest source (decodeAt forest source depth) id =
          .ok (memberOf source tree.children) := by
        refine decodeMember_eq subtree inside ?_
        intro child _ _ smaller below within
        exact ih below within (by omega)
      obtain ⟨-, ⟨parent, prev, next, root⟩, -, -⟩ := subtree
      cases tree with
      | node tag start stop bookmark trees =>
          simp only [decodeAt, text, root, Fault.ok_bind, rootNode, MarkedTree.tag]
          cases tag with
          | none => simp [valueOf]
          | some tag =>
              cases tag with
              | array =>
                  simp only [children, elements, Fault.ok_bind, Fault.pure_eq_ok]
                  simp [valueOf, valuesOf_eq_map, MarkedTree.children]
              | object =>
                  simp only [children, members, Fault.ok_bind, Fault.pure_eq_ok]
                  simp [valueOf, membersOf_eq_map, MarkedTree.children]
              | member => simp [valueOf, member, MarkedTree.children]
              | _ => simp [valueOf, MarkedTree.start, MarkedTree.stop]

theorem decode_eq {id low : Nat} {tree : MarkedTree Tag} (subtree : forest.Subtree id low tree)
    (inside : tree.stop ≤ source.size) :
    decode forest source id = .ok (valueOf source tree) := by
  obtain ⟨parent, prev, next, root⟩ := subtree.root
  have live := Forest.lt_size_of_node root
  exact decodeAt_eq subtree inside (by omega)

end PegForest.Json
