import PegForest.Forest.Promote
import PegForest.Forest.Recycle
import PegForest.Proofs.Arena.Image

/-!
# Forests further into the input

A forest is the displaced forest of another one when both have the same nodes, links, counts and
ends, except that every range lies further into the input, all of them by the same number of atoms.
Links are never computed from ranges, so whatever is done to both forests keeps them so and stops on
both in the same way.  With no displacement at all this says of two forests that they differ at most
in the slabs that their nodes are kept in.
-/

set_option autoImplicit false

namespace PegForest

variable {τ : Type}

def Node.displace (ahead : Nat) (node : Node τ) : Node τ :=
  { node with start := node.start + ahead, stop := node.stop + ahead }

namespace Forest

/-- The forest is the other one, with all ranges `ahead` atoms further into the input. -/
structure Displaced (ahead : Nat) (forest forest' : Forest τ) : Prop where
  nodes : forest.arena.Images (Node.displace ahead) forest'.arena
  head : forest.head = forest'.head
  tail : forest.tail = forest'.tail
  created : forest.created = forest'.created
  recycled : forest.recycled = forest'.recycled

namespace Displaced

variable {ahead : Nat} {forest forest' : Forest τ}

theorem size_eq (displaced : Displaced ahead forest forest') : forest.size = forest'.size :=
  displaced.nodes.size_eq

theorem node (displaced : Displaced ahead forest forest') (id : NodeId) :
    Agree (fun node node' => node = node'.displace ahead) (forest.node id) (forest'.node id) :=
  displaced.nodes.get id

theorem update (displaced : Displaced ahead forest forest') (id : NodeId)
    {change change' : Node τ → Node τ}
    (changes : ∀ node, change (node.displace ahead) = (change' node).displace ahead) :
    Agree (Displaced ahead) (forest.update id change) (forest'.update id change') := by
  obtain ⟨nodes, head, tail, created, recycled⟩ := displaced
  unfold Forest.update
  apply (nodes.modify id changes).bind
  intro arena arena' _ nodes'
  exact .ok ⟨nodes', head, tail, created, recycled⟩

theorem firstAfter (displaced : Displaced ahead forest forest') (watermark : Option NodeId) :
    Agree Eq (forest.firstAfter watermark) (forest'.firstAfter watermark) := by
  cases watermark with
  | none => exact .ok displaced.head
  | some mark =>
      apply (displaced.node mark).bind
      rintro _ node' - rfl
      exact .ok rfl

theorem linkAfter (displaced : Displaced ahead forest forest') (watermark next : Option NodeId) :
    Agree (Displaced ahead) (forest.linkAfter watermark next)
      (forest'.linkAfter watermark next) := by
  cases watermark with
  | none =>
      exact .ok ⟨displaced.nodes, rfl, displaced.tail, displaced.created, displaced.recycled⟩
  | some mark => exact displaced.update mark fun _ => rfl

theorem updateSiblings {change change' : Node τ → Node τ} {upto : Option NodeId} (steps : Nat)
    (changes : ∀ node, change (node.displace ahead) = (change' node).displace ahead) :
    ∀ first {forest forest' : Forest τ}, Displaced ahead forest forest' →
      Agree (Displaced ahead) (Forest.updateSiblings change upto steps first forest)
        (Forest.updateSiblings change' upto steps first forest') := by
  induction steps with
  | zero =>
      intro first forest forest' displaced
      cases first with
      | none => exact .ok displaced
      | some id =>
          unfold Forest.updateSiblings
          split
          · exact .ok displaced
          · exact .error _
  | succ steps ih =>
      intro first forest forest' displaced
      cases first with
      | none => exact .ok displaced
      | some id =>
          unfold Forest.updateSiblings
          by_cases last : some id = upto
          · rw [if_pos last, if_pos last]
            exact .ok displaced
          · rw [if_neg last, if_neg last]
            apply (displaced.node id).bind
            rintro _ node' - rfl
            apply (displaced.update id changes).bind
            intro forest forest' _ displaced'
            exact ih node'.next displaced'

theorem updateAll (displaced : Displaced ahead forest forest') {change change' : Node τ → Node τ}
    {upto : Option NodeId} (first : Option NodeId)
    (changes : ∀ node, change (node.displace ahead) = (change' node).displace ahead) :
    Agree (Displaced ahead) (Forest.updateSiblings change upto forest.size first forest)
      (Forest.updateSiblings change' upto forest'.size first forest') := by
  rw [displaced.size_eq]
  exact updateSiblings _ changes first displaced

theorem siblingsFrom (displaced : Displaced ahead forest forest') (steps : Nat) :
    ∀ first, Agree Eq (forest.siblingsFrom steps first) (forest'.siblingsFrom steps first) := by
  induction steps with
  | zero =>
      intro first
      cases first with
      | none => exact .ok rfl
      | some id => exact .error _
  | succ steps ih =>
      intro first
      cases first with
      | none => exact .ok rfl
      | some id =>
          apply (displaced.node id).bind
          rintro _ node' - rfl
          apply (ih node'.next).bind
          rintro rest _ - rfl
          exact .ok rfl

theorem alloc (displaced : Displaced ahead forest forest') (node : Node τ) :
    Displaced ahead
      { forest with
        arena := forest.arena.alloc (node.displace ahead), created := forest.created + 1 }
      { forest' with arena := forest'.arena.alloc node, created := forest'.created + 1 } :=
  ⟨displaced.nodes.alloc node, displaced.head, displaced.tail,
    congrArg (· + 1) displaced.created, displaced.recycled⟩

theorem close (displaced : Displaced ahead forest forest') (watermark : Option NodeId)
    (tag : Option τ) (start stop : Nat) (bookmark : Bool) :
    Agree (Displaced ahead)
      (forest.close watermark tag (start + ahead) (stop + ahead) bookmark)
      (forest'.close watermark tag start stop bookmark) := by
  have ended : ∀ {forest forest' : Forest τ} (id : NodeId), Displaced ahead forest forest' →
      Agree (Displaced ahead)
        (do
          let forest ← forest.linkAfter watermark (some id)
          return { forest with tail := some id })
        (do
          let forest ← forest'.linkAfter watermark (some id)
          return { forest with tail := some id }) := by
    intro forest forest' id displaced
    apply (displaced.linkAfter watermark _).bind
    intro forest forest' _ linked
    exact .ok ⟨linked.nodes, linked.head, rfl, linked.created, linked.recycled⟩
  simp only [Forest.close, add_eq]
  rw [displaced.size_eq, displaced.tail]
  apply (displaced.firstAfter watermark).bind
  rintro first _ - rfl
  have grown := displaced.alloc
    { tag, start, stop, bookmark, parent := none, prev := watermark, next := none,
      firstChild := first, lastChild := first.bind fun _ => forest'.tail }
  rw [displaced.tail] at grown
  refine (grown.updateAll first fun _ => ?_).bind ?_
  · rfl
  intro forest forest' _ parented
  cases first with
  | none => exact ended _ parented
  | some first =>
      refine (parented.update first fun _ => ?_).bind ?_
      · rfl
      intro forest forest' _ detached
      exact ended _ detached

theorem adoptPreceding (displaced : Displaced ahead forest forest') (watermark : Option NodeId)
    (id : NodeId) :
    Agree (Displaced ahead) (forest.adoptPreceding watermark id)
      (forest'.adoptPreceding watermark id) := by
  -- Both ways to link the adopted roots end in the same three changes.
  have relinked : ∀ (first : NodeId) {forest forest' : Forest τ}, Displaced ahead forest forest' →
      Agree (Displaced ahead)
        (do
          let forest ← forest.update first fun child => { child with prev := none }
          let forest ← forest.update id fun node =>
            { node with firstChild := some first, prev := watermark }
          forest.linkAfter watermark (some id))
        (do
          let forest ← forest'.update first fun child => { child with prev := none }
          let forest ← forest.update id fun node =>
            { node with firstChild := some first, prev := watermark }
          forest.linkAfter watermark (some id)) := by
    intro first forest forest' displaced
    refine (displaced.update first fun _ => ?_).bind ?_
    · rfl
    intro forest forest' _ detached
    refine (detached.update id fun _ => ?_).bind ?_
    · rfl
    intro forest forest' _ opened
    exact opened.linkAfter watermark _
  unfold Forest.adoptPreceding
  apply (displaced.firstAfter watermark).bind
  rintro first _ - rfl
  cases first with
  | none => exact .ok displaced
  | some first =>
      dsimp only
      by_cases reached : first = id
      · rw [if_pos reached, if_pos reached]
        exact .ok displaced
      · rw [if_neg reached, if_neg reached]
        apply (displaced.node id).bind
        rintro _ node' - rfl
        obtain ⟨tag, start, stop, bookmark, parent, prev, next, firstChild, lastChild⟩ := node'
        cases prev with
        | none => exact .error _
        | some before =>
            refine (displaced.updateAll _ fun _ => ?_).bind ?_
            · rfl
            intro forest forest' _ parented
            refine (parented.update before fun _ => ?_).bind ?_
            · rfl
            intro forest forest' _ linked
            cases firstChild with
            | none =>
                refine (linked.update id fun _ => ?_).bind ?_
                · rfl
                intro forest forest' _ joined
                exact relinked first joined
            | some child =>
                refine (linked.update child fun _ => ?_).bind ?_
                · rfl
                intro forest forest' _ joined
                exact relinked first joined

theorem promoteFrom (watermark : Option NodeId) (start steps : Nat) :
    ∀ first promoted {forest forest' : Forest τ}, Displaced ahead forest forest' →
      Agree (fun found found' => found.1 = found'.1 ∧ Displaced ahead found.2 found'.2)
        (Forest.promoteFrom watermark (start + ahead) steps first promoted forest)
        (Forest.promoteFrom watermark start steps first promoted forest') := by
  induction steps with
  | zero =>
      intro first promoted forest forest' displaced
      cases first with
      | none => exact .ok ⟨rfl, displaced⟩
      | some id => exact .error _
  | succ steps ih =>
      intro first promoted forest forest' displaced
      cases first with
      | none => exact .ok ⟨rfl, displaced⟩
      | some id =>
          unfold Forest.promoteFrom
          apply (displaced.node id).bind
          rintro _ node' - rfl
          by_cases marked : node'.bookmark = true
          · have marked' : (node'.displace ahead).bookmark = true := marked
            rw [if_pos marked, if_pos marked']
            apply (displaced.adoptPreceding watermark id).bind
            intro forest forest' _ adopted
            refine (adopted.update id fun _ => ?_).bind ?_
            · rfl
            intro forest forest' _ unmarked
            exact ih node'.next (some id) unmarked
          · have marked' : ¬(node'.displace ahead).bookmark = true := marked
            rw [if_neg marked, if_neg marked']
            exact ih node'.next promoted displaced

theorem promote (displaced : Displaced ahead forest forest') (watermark : Option NodeId)
    (start stop : Nat) :
    Agree (fun found found' => found.1 = found'.1 ∧ Displaced ahead found.2 found'.2)
      (forest.promote watermark (start + ahead) (stop + ahead))
      (forest'.promote watermark start stop) := by
  unfold Forest.promote
  rw [displaced.size_eq]
  apply (displaced.firstAfter watermark).bind
  rintro first _ - rfl
  apply (promoteFrom watermark start forest'.size first none displaced).bind
  rintro ⟨promoted, forest⟩ ⟨_, forest'⟩ - ⟨rfl, promotes⟩
  cases promoted with
  | none => exact .ok ⟨rfl, promotes⟩
  | some outer =>
      refine (promotes.update outer fun _ => ?_).bind ?_
      · rfl
      intro forest forest' _ covered
      exact .ok ⟨rfl, covered⟩

theorem release (steps : Nat) :
    ∀ pending {forest forest' : Forest τ}, Displaced ahead forest forest' →
      Agree (Displaced ahead) (Forest.release steps pending forest)
        (Forest.release steps pending forest') := by
  induction steps with
  | zero =>
      intro pending forest forest' displaced
      cases pending with
      | nil => exact .ok displaced
      | cons id pending =>
          unfold Forest.release
          rw [displaced.nodes.last?_eq]
          exact .error _
  | succ steps ih =>
      intro pending forest forest' displaced
      cases pending with
      | nil => exact .ok displaced
      | cons id pending =>
          obtain ⟨arena, head, tail, created, recycled⟩ := forest
          obtain ⟨arena', head', tail', created', recycled'⟩ := forest'
          unfold Forest.release
          apply (displaced.nodes.free id).bind
          rintro ⟨_, arena⟩ ⟨node', arena'⟩ - ⟨rfl, nodes⟩
          have freed : Displaced ahead ⟨arena, head, tail, created, recycled⟩
              ⟨arena', head', tail', created', recycled'⟩ :=
            ⟨nodes, displaced.head, displaced.tail, displaced.created, displaced.recycled⟩
          dsimp only
          rw [freed.size_eq]
          apply (freed.siblingsFrom _ node'.firstChild).bind
          rintro children _ - rfl
          exact ih _ freed

theorem dropRoots (watermark : Option NodeId) (steps : Nat) :
    ∀ {forest forest' : Forest τ}, Displaced ahead forest forest' →
      Agree (Displaced ahead) (Forest.dropRoots watermark steps forest)
        (Forest.dropRoots watermark steps forest') := by
  induction steps using Nat.strong_induction_on with
  | _ steps ih =>
      intro forest forest' displaced
      unfold Forest.dropRoots
      rw [displaced.tail]
      by_cases done : forest'.tail = watermark
      · rw [if_pos done, if_pos done]
        exact .ok displaced
      · rw [if_neg done, if_neg done]
        cases forest'.tail with
        | none =>
            cases watermark with
            | none => exact .ok displaced
            | some mark => exact .error _
        | some top =>
            cases steps with
            | zero => exact .error _
            | succ steps =>
                dsimp only
                apply (displaced.node top).bind
                rintro _ node' - rfl
                have cut : Displaced ahead { forest with tail := node'.prev }
                    { forest' with tail := node'.prev } :=
                  ⟨displaced.nodes, displaced.head, rfl, displaced.created, displaced.recycled⟩
                rw [displaced.size_eq]
                apply (release _ [top] cut).bind
                intro forest forest' _ released
                exact ih steps (Nat.lt_succ_self _) released

theorem recycleTo (displaced : Displaced ahead forest forest') (watermark : Option NodeId) :
    Agree (Displaced ahead) (forest.recycleTo watermark) (forest'.recycleTo watermark) := by
  unfold Forest.recycleTo
  rw [displaced.size_eq]
  apply (dropRoots watermark forest'.size displaced).bind
  intro forest forest' _ dropped
  apply (dropped.linkAfter watermark none).bind
  intro forest forest' _ linked
  refine .ok ⟨linked.nodes, linked.head, linked.tail, linked.created, ?_⟩
  dsimp only
  rw [linked.recycled, linked.size_eq]

theorem reset (displaced : Displaced ahead forest forest') :
    Displaced ahead forest.reset forest'.reset :=
  ⟨displaced.nodes.reset, rfl, rfl, rfl, rfl⟩

end Displaced

end Forest

end PegForest
