import PegForest.Forest.Promote
import PegForest.Proofs.Forest.Represent

/-!
# Promoting bookmarks is a fold

`promoteAll` says on trees what promotion does: from left to right, a marked tree takes all trees
that are there before it, puts them in front of its children and stands in their place.  A forest
that represents trees is changed by relinking into one that represents the folded trees.
-/

set_option autoImplicit false

namespace PegForest

namespace MarkedTree

variable {τ : Type}

def precede (before : List (MarkedTree τ)) : MarkedTree τ → MarkedTree τ
  | node tag start stop bookmark children => node tag start stop bookmark (before ++ children)

def resolve (start : Nat) : MarkedTree τ → MarkedTree τ
  | node tag _ stop _ children => node tag start stop false children

def widen (stop : Nat) : MarkedTree τ → MarkedTree τ
  | node tag start _ bookmark children => node tag start stop bookmark children

/-- Let each marked tree adopt what was done before it, from left to right. -/
def promoteOnto (start : Nat) (done : List (MarkedTree τ)) : List (MarkedTree τ) → List (MarkedTree τ)
  | [] => done
  | tree :: rest =>
      if tree.bookmark then promoteOnto start [(tree.precede done).resolve start] rest
      else promoteOnto start (done ++ [tree]) rest

/-- Resolve the marks of a list of trees; the last marked tree then covers the range to its end. -/
def promoteAll (start stop : Nat) (trees : List (MarkedTree τ)) : List (MarkedTree τ) :=
  if trees.any bookmark then (promoteOnto start [] trees).modifyHead (widen stop) else trees

@[simp] theorem children_precede (before : List (MarkedTree τ)) (tree : MarkedTree τ) :
    (tree.precede before).children = before ++ tree.children := by
  cases tree
  rfl

@[simp] theorem children_resolve (start : Nat) (tree : MarkedTree τ) :
    (tree.resolve start).children = tree.children := by
  cases tree
  rfl

@[simp] theorem children_widen (stop : Nat) (tree : MarkedTree τ) :
    (tree.widen stop).children = tree.children := by
  cases tree
  rfl

theorem precede_nil (tree : MarkedTree τ) : tree.precede [] = tree := by
  cases tree
  rfl

theorem promoteOnto_unmarked (start : Nat) (done trees : List (MarkedTree τ))
    (unmarked : trees.any bookmark = false) : promoteOnto start done trees = done ++ trees := by
  induction trees generalizing done with
  | nil => simp [promoteOnto]
  | cons tree rest ih =>
      simp only [List.any_cons, Bool.or_eq_false_iff] at unmarked
      simp [promoteOnto, unmarked.1, ih _ unmarked.2]

theorem promoteOnto_eq_nil {start : Nat} {done trees : List (MarkedTree τ)}
    (nothing : promoteOnto start done trees = []) : done = [] ∧ trees = [] := by
  induction trees generalizing done with
  | nil => exact ⟨nothing, rfl⟩
  | cons tree rest ih =>
      rw [promoteOnto] at nothing
      split at nothing
      · simpa using (ih nothing).1
      · simpa using (ih nothing).1

/-- Marked trees that adopt what stands before them one after another leave one tree. -/
theorem promoteAll_marks {start stop : Nat} {tree grown : MarkedTree τ}
    {marks : List (MarkedTree τ)} (plain : tree.bookmark = false)
    (adopted : promoteOnto start [tree] marks = [grown])
    (ends : marks = [] ∨ marks.any bookmark = true ∧ grown.stop = stop) :
    promoteAll start stop (tree :: marks) = [grown] := by
  have onto : promoteOnto start [] (tree :: marks) = [grown] := by
    rw [promoteOnto, plain, if_neg (by simp), List.nil_append, adopted]
  rcases ends with rfl | ⟨marked, rfl⟩
  · rw [promoteAll, if_neg (by simp [plain]), ← adopted]
    rfl
  · rw [promoteAll, if_pos (by simp [marked]), onto]
    cases grown
    rfl

theorem rootId_precede (base : Nat) (before : List (MarkedTree τ)) (tree : MarkedTree τ) :
    (tree.precede before).rootId base = tree.rootId (base + sizeAll before) := by
  simp [rootId, Nat.add_assoc]

theorem size_precede (before : List (MarkedTree τ)) (tree : MarkedTree τ) :
    (tree.precede before).size = sizeAll before + tree.size := by
  simp [size_eq, Nat.add_assoc]

end MarkedTree

namespace Forest

open MarkedTree

variable {τ : Type}

theorem Represents.update_root {forest : Forest τ} {front back : List (MarkedTree τ)}
    {tree tree' : MarkedTree τ} (represents : forest.Represents (front ++ tree :: back))
    (change : Node τ → Node τ) (kept : tree'.children = tree.children)
    (edited : ∀ parent prev next base,
      change (rootNode parent prev next base tree) = rootNode parent prev next base tree') :
    ∃ arena, forest.update (tree.rootId (sizeAll front)) change = .ok { forest with arena } ∧
      { forest with arena }.Represents (front ++ tree' :: back) := by
  obtain ⟨nodes, headEq, tailEq⟩ := represents
  rw [layoutAll_append, layoutAll_cons, Nat.zero_add, firstOr_cons, ← List.append_assoc] at nodes
  have sameId : ∀ base, tree'.rootId base = tree.rootId base := by
    intro base
    rw [rootId, rootId, kept]
  have sameSize : tree'.size = tree.size := by rw [MarkedTree.size_eq, MarkedTree.size_eq, kept]
  have place : (layoutAll none none (some (tree.rootId (sizeAll front))) 0 front ++
      layoutAll (some (tree.rootId (sizeAll front))) none none (sizeAll front) tree.children).length =
      tree.rootId (sizeAll front) := by
    simp [rootId]
  obtain ⟨arena, updated, stacked⟩ := update_of_stacks nodes place change
  refine ⟨arena, updated, ?_, ?_, ?_⟩
  · rw [layoutAll_append, layoutAll_cons, Nat.zero_add, firstOr_cons, sameId, sameSize, kept,
      ← edited]
    simpa using stacked
  · simp only [headEq, firstOr_append, firstOr_cons, sameId]
  · simp only [tailEq, lastOr_append, lastOr, sameId, sameSize]

/-- The first child of the adopting node gets a sibling before it; without a child, the last of the
adopted nodes becomes the last child. -/
theorem join_children {forest : Forest τ} {front back : List (Node τ)} {base : Nat}
    {parent prev next : Option NodeId} {tree : MarkedTree τ} (before : Nat) (width : front.length = base)
    (stacked : forest.arena.Stacks (front ++
      (layoutAll (some (tree.rootId base)) none none base tree.children ++
        rootNode parent prev next base tree :: back))) :
    ∃ arena,
      (match firstOr none base tree.children with
        | some child => forest.update child fun child => { child with prev := some before }
        | none => forest.update (tree.rootId base) fun node =>
            { node with lastChild := some before }) = .ok { forest with arena } ∧
      arena.Stacks (front ++
        (layoutAll (some (tree.rootId base)) (some before) none base tree.children ++
          { rootNode parent prev next base tree with
            lastChild := lastOr (some before) base tree.children } :: back)) := by
  cases childless : tree.children with
  | nil =>
      have place : front.length = tree.rootId base := by simp [rootId, width, childless]
      rw [childless, layoutAll_nil, List.nil_append] at stacked
      exact update_of_stacks stacked place _
  | cons child rest =>
      rw [← childless]
      have place : firstOr none base tree.children = some (child.rootId base) := by simp [childless]
      obtain ⟨arena, updated, stacked'⟩ := update_prev_of_first width stacked place (some before)
      refine ⟨arena, ?_, ?_⟩
      · rw [place]
        exact updated
      · have sameLast : lastOr (some before) base tree.children = lastOr none base tree.children := by
          simp [childless, lastOr]
        rw [sameLast]
        exact stacked'

theorem lastOr_of_ne_nil (before before' : Option NodeId) (base : Nat) {trees : List (MarkedTree τ)}
    (some_tree : trees ≠ []) : lastOr before base trees = lastOr before' base trees := by
  rw [lastOr_eq before base some_tree, lastOr_eq before' base some_tree]

theorem tell_adopted {forest : Forest τ} {front back : List (Node τ)} {base : Nat}
    {prev : Option NodeId} {trees : List (MarkedTree τ)} (id : Nat) (steps : Nat)
    (enough : trees.length ≤ steps) (width : front.length = base) (later : base + sizeAll trees ≤ id)
    (stacked : forest.arena.Stacks (front ++ (layoutAll none prev (some id) base trees ++ back))) :
    ∃ arena,
      updateSiblings (fun child => { child with parent := some id }) (some id) steps
        (firstOr (some id) base trees) forest = .ok { forest with arena } ∧
      arena.Stacks (front ++ (layoutAll (some id) prev (some id) base trees ++ back)) := by
  have apart : ∀ id', some id = some id' → base + sizeAll trees ≤ id' := by
    intro id' same
    rwa [← Option.some_inj.mp same]
  obtain ⟨arena, looped, stacked'⟩ := updateSiblings_layoutAll
    (fun child : Node τ => { child with parent := some id }) (fun tree => tree) (fun _ _ _ _ => rfl)
    (fun _ => rfl) trees steps base front back prev forest enough width apart stacked
  rw [List.map_id'] at stacked'
  exact ⟨arena, looped, stacked'⟩

/-- The adopted roots and the old children become siblings: the adopted ones learn their parent, and
the last of them and the first old child become neighbours. -/
theorem join_siblings {forest : Forest τ} {done : List (MarkedTree τ)} {tree : MarkedTree τ}
    {front back : List (Node τ)} {prev prev' next : Option NodeId} {base mid before : Nat}
    (enough : done.length ≤ forest.size) (width : front.length = base)
    (behind : base + sizeAll done = mid) (lastDone : lastOr none base done = some before)
    (stacked : forest.arena.Stacks (front ++
      (layoutAll none prev (some (tree.rootId mid)) base done ++
        (layoutAll (some (tree.rootId mid)) none none mid tree.children ++
          rootNode none prev' next mid tree :: back)))) :
    ∃ arena₁ arena₂ arena₃,
      updateSiblings (fun child => { child with parent := some (tree.rootId mid) })
        (some (tree.rootId mid)) forest.size (firstOr (some (tree.rootId mid)) base done) forest =
          .ok { forest with arena := arena₁ } ∧
      update { forest with arena := arena₁ } before
        (fun child => { child with next := firstOr none mid tree.children }) =
          .ok { forest with arena := arena₂ } ∧
      (match firstOr none mid tree.children with
        | some child => update { forest with arena := arena₂ } child fun child =>
            { child with prev := some before }
        | none => update { forest with arena := arena₂ } (tree.rootId mid) fun node =>
            { node with lastChild := some before }) = .ok { forest with arena := arena₃ } ∧
      arena₃.Stacks (front ++
        (layoutAll (some (tree.rootId mid)) prev none base (done ++ tree.children) ++
          { rootNode none prev' next mid tree with
            lastChild := lastOr (some before) mid tree.children } :: back)) := by
  have later : base + sizeAll done ≤ tree.rootId mid := by
    rw [rootId]
    omega
  obtain ⟨arena₁, told, stacks₁⟩ := tell_adopted _ forest.size enough width later stacked
  obtain ⟨arena₂, nexted, stacks₂⟩ := update_next_of_last width
    (show (Forest.arena { forest with arena := arena₁ }).Stacks _ from stacks₁) lastDone
    (firstOr none mid tree.children)
  rw [← List.append_assoc] at stacks₂
  obtain ⟨arena₃, joined, stacks₃⟩ := join_children before (by simp [width, behind])
    (show (Forest.arena { forest with arena := arena₂ }).Stacks _ from stacks₂)
  refine ⟨arena₁, arena₂, arena₃, told, nexted, joined, ?_⟩
  rw [layoutAll_append, lastOr_of_ne_nil prev none base, lastDone, behind]
  · simpa using stacks₃
  · rintro rfl
    simp at lastDone

theorem rootNode_precede {done : List (MarkedTree τ)} {tree : MarkedTree τ}
    {parent prev next : Option NodeId} {base first before : Nat}
    (firstDone : ∀ after, firstOr after base done = some first)
    (lastDone : lastOr none base done = some before) :
    rootNode parent prev next base (tree.precede done) =
      { rootNode parent (some before) next (base + sizeAll done) tree with
        lastChild := lastOr (some before) (base + sizeAll done) tree.children
        firstChild := some first
        prev } := by
  have firstChild : firstOr none base (done ++ tree.children) = some first := by
    rw [firstOr_append, firstDone]
  have lastChild : lastOr none base (done ++ tree.children) =
      lastOr (some before) (base + sizeAll done) tree.children := by
    rw [lastOr_append, lastDone]
  rw [← firstChild, ← lastChild]
  cases tree
  rfl

theorem first_ne_rootId {done : List (MarkedTree τ)} {tree : MarkedTree τ} {base first : Nat}
    (start : firstOr none base done = some first) : first ≠ tree.rootId (base + sizeAll done) := by
  cases done with
  | nil => simp at start
  | cons tree' others =>
      have place := tree'.rootId_add_one base
      rw [firstOr_cons, Option.some_inj] at start
      rw [rootId, sizeAll_cons]
      omega

/-- The links that adoption changes, in the order in which it changes them. -/
theorem adoptPreceding_of_stacks {forest : Forest τ} {old done : List (MarkedTree τ)}
    {tree : MarkedTree τ} {back : List (Node τ)} {next : Option NodeId} {first before : Nat}
    (enough : done.length ≤ forest.size)
    (firstDone : ∀ after, firstOr after (sizeAll old) done = some first)
    (lastDone : lastOr none (sizeAll old) done = some before)
    (stacked : forest.arena.Stacks (layoutAll none none (some first) 0 old ++
      (layoutAll none (lastOr none 0 old) (some (tree.rootId (sizeAll old + sizeAll done)))
          (sizeAll old) done ++
        (layoutAll (some (tree.rootId (sizeAll old + sizeAll done))) none none
            (sizeAll old + sizeAll done) tree.children ++
          rootNode none (some before) next (sizeAll old + sizeAll done) tree :: back))))
    (headEq : forest.head = firstOr (some first) 0 old) :
    ∃ arena, forest.adoptPreceding (lastOr none 0 old) (tree.rootId (sizeAll old + sizeAll done)) =
        .ok { forest with
          arena, head := firstOr (some (tree.rootId (sizeAll old + sizeAll done))) 0 old } ∧
      arena.Stacks (layoutAll none none (some (tree.rootId (sizeAll old + sizeAll done))) 0 old ++
        (layoutAll (some (tree.rootId (sizeAll old + sizeAll done))) none none (sizeAll old)
            (done ++ tree.children) ++
          rootNode none (lastOr none 0 old) next (sizeAll old) (tree.precede done) :: back)) := by
  set base := sizeAll old with baseDef
  set id := tree.rootId (base + sizeAll done) with idDef
  have width : (layoutAll none none (some first) 0 old).length = base := by simp [baseDef]
  have place : ∀ prev, (layoutAll none none (some first) 0 old ++
      layoutAll (some id) prev none base (done ++ tree.children)).length = id := by
    simp [idDef, rootId, width, Nat.add_assoc]
  have firstNode := firstAfter_lastOr stacked headEq
  have distinct : first ≠ id := first_ne_rootId (firstDone none)
  have found : forest.node id = .ok (rootNode none (some before) next (base + sizeAll done) tree) := by
    rw [← List.append_assoc, ← List.append_assoc] at stacked
    exact node_of_stacks stacked (by simp [idDef, rootId, width, Nat.add_assoc])
  -- the adopted roots come in front of the children
  obtain ⟨arena₁, arena₂, arena₃, told, nexted, joined, stacks₃⟩ :=
    join_siblings enough width rfl lastDone stacked
  rw [← idDef] at told joined
  -- the first of them has nothing before it any more
  obtain ⟨arena₄, preved, stacks₄⟩ := update_prev_of_first width
    (show (Forest.arena { forest with arena := arena₃ }).Stacks _ from stacks₃)
    ((firstOr_append none base done tree.children).trans (firstDone _)) none
  -- the adopting root moves to the place behind the watermark
  rw [← List.append_assoc] at stacks₄
  obtain ⟨arena₅, moved, stacks₅⟩ := update_of_stacks
    (show (Forest.arena { forest with arena := arena₄ }).Stacks _ from stacks₄) (place none)
    (fun node => { node with firstChild := some first, prev := lastOr none 0 old })
  rw [List.append_assoc] at stacks₅
  obtain ⟨arena₆, linked, stacks₆⟩ := linkAfter_lastOr
    (show (Forest.arena { forest with arena := arena₅ }).Stacks _ from stacks₅) headEq (some id)
  refine ⟨arena₆, ?_, ?_⟩
  · rw [firstDone] at told
    have prevRoot : (rootNode none (some before) next (base + sizeAll done) tree).prev =
        some before := rfl
    have childRoot : (rootNode none (some before) next (base + sizeAll done) tree).firstChild =
        firstOr none (base + sizeAll done) tree.children := rfl
    simp only [Forest.adoptPreceding, firstNode, Fault.ok_bind, if_neg distinct, found, prevRoot,
      childRoot, told, nexted]
    cases inner : firstOr none (base + sizeAll done) tree.children with
    | none =>
        rw [inner] at joined
        simp only [joined, Fault.ok_bind, preved, moved, linked]
    | some child =>
        rw [inner] at joined
        simp only [joined, Fault.ok_bind, preved, moved, linked]
  · rw [rootNode_precede firstDone lastDone]
    exact stacks₆

theorem Represents.adoptPreceding {forest : Forest τ} {old done rest : List (MarkedTree τ)}
    {tree : MarkedTree τ} (represents : forest.Represents (old ++ (done ++ tree :: rest))) :
    ∃ forest', forest.adoptPreceding (lastOr none 0 old) (tree.rootId (sizeAll old + sizeAll done)) =
        .ok forest' ∧
      forest'.Represents (old ++ tree.precede done :: rest) ∧
      forest'.created = forest.created ∧ forest'.recycled = forest.recycled := by
  have size := represents.size_eq
  obtain ⟨nodes, headEq, tailEq⟩ := represents
  rw [layoutAll_append, Nat.zero_add] at nodes
  rw [firstOr_append, Nat.zero_add] at headEq
  have first := firstAfter_lastOr nodes headEq
  cases done with
  | nil =>
      refine ⟨forest, ?_, ?_, rfl, rfl⟩
      · simp [Forest.adoptPreceding, first]
      · rw [precede_nil]
        exact ⟨by rw [layoutAll_append, Nat.zero_add]; exact nodes,
          by rw [firstOr_append, Nat.zero_add]; exact headEq, tailEq⟩
  | cons firstTree others =>
      have firstDone : ∀ after, firstOr after (sizeAll old) (firstTree :: others) =
          some (firstTree.rootId (sizeAll old)) := fun _ => rfl
      have some_done : firstTree :: others ≠ [] := by simp
      generalize firstTree :: others = done at *
      have lastDone := lastOr_eq none (sizeAll old) some_done
      have enough : done.length ≤ forest.size := by
        have := length_le_sizeAll done
        simp only [sizeAll_append] at size
        omega
      rw [layoutAll_append, layoutAll_cons, lastOr_of_ne_nil _ none _ some_done, lastDone,
        firstOr_append, firstDone, firstOr_cons] at nodes
      rw [firstOr_append, firstDone] at headEq
      obtain ⟨arena, adopted, stacked⟩ := adoptPreceding_of_stacks enough firstDone lastDone nodes headEq
      refine ⟨_, adopted, ⟨?_, ?_, ?_⟩, rfl, rfl⟩
      · rw [layoutAll_append, layoutAll_cons, Nat.zero_add, firstOr_cons, rootId_precede,
          size_precede, children_precede, ← Nat.add_assoc]
        exact stacked
      · rw [firstOr_append, Nat.zero_add, firstOr_cons, rootId_precede]
      · rw [tailEq, lastOr_append, lastOr_append, lastOr_append]
        simp only [lastOr, rootId_precede, size_precede, Nat.zero_add, Nat.add_assoc]

theorem Represents.resolveRoot {forest : Forest τ} {old done rest : List (MarkedTree τ)}
    {tree : MarkedTree τ} (represents : forest.Represents (old ++ (done ++ tree :: rest)))
    (start : Nat) :
    ∃ forest₁ forest₂,
      forest.adoptPreceding (lastOr none 0 old) (tree.rootId (sizeAll old + sizeAll done)) =
        .ok forest₁ ∧
      forest₁.update (tree.rootId (sizeAll old + sizeAll done))
        (fun node => { node with bookmark := false, start := start }) = .ok forest₂ ∧
      forest₂.Represents (old ++ ([(tree.precede done).resolve start] ++ rest)) ∧
      forest₂.created = forest.created ∧ forest₂.recycled = forest.recycled := by
  obtain ⟨forest₁, adopted, represents₁, created, recycled⟩ := represents.adoptPreceding
  obtain ⟨arena, updated, represents₂⟩ := represents₁.update_root
    (fun node => { node with bookmark := false, start := start })
    (children_resolve start (tree.precede done)) (by intros; cases tree; rfl)
  rw [rootId_precede] at updated
  exact ⟨forest₁, _, adopted, updated, represents₂, created, recycled⟩

/-- The walk over the roots after a watermark does on the forest what the fold does on the trees, and
it names the root that the fold puts first. -/
theorem Represents.promoteFrom (start : Nat) (old : List (MarkedTree τ)) :
    ∀ (rest done : List (MarkedTree τ)) (steps : Nat) (promoted : Option NodeId) (forest : Forest τ),
      rest.length ≤ steps → forest.Represents (old ++ (done ++ rest)) →
      ∃ forest', promoteFrom (lastOr none 0 old) start steps
          (firstOr none (sizeAll old + sizeAll done) rest) promoted forest =
          .ok (if rest.any bookmark then firstOr none (sizeAll old) (promoteOnto start done rest)
            else promoted, forest') ∧
        forest'.Represents (old ++ promoteOnto start done rest) ∧
        forest'.created = forest.created ∧ forest'.recycled = forest.recycled := by
  intro rest
  induction rest with
  | nil =>
      intro done steps promoted forest _ represents
      refine ⟨forest, ?_, by simpa [promoteOnto] using represents, rfl, rfl⟩
      cases steps <;> rfl
  | cons tree rest ih =>
      intro done steps promoted forest enough represents
      obtain ⟨steps, rfl⟩ : ∃ n, steps = n + 1 :=
        ⟨steps - 1, by simp only [List.length_cons] at enough; omega⟩
      have enough' : rest.length ≤ steps := by simpa using enough
      have found := (show forest.Represents ((old ++ done) ++ tree :: rest) by
        simpa using represents).node_root
      rw [sizeAll_append] at found
      -- An unmarked root joins those done; a marked one adopts them and is the only one done.
      cases marked : tree.bookmark with
      | false =>
          obtain ⟨forest', walked, represents', stats⟩ := ih (done ++ [tree]) steps promoted forest
            enough' (by simpa using represents)
          refine ⟨forest', ?_, by simpa [promoteOnto, marked] using represents', stats⟩
          simp only [sizeAll_append, sizeAll_cons, sizeAll_nil, Nat.add_zero, ← Nat.add_assoc]
            at walked
          simp only [firstOr_cons, Forest.promoteFrom, found, Fault.ok_bind, rootNode, marked, walked]
          simp [marked, promoteOnto]
      | true =>
          obtain ⟨forest₁, forest₂, adopted, updated, represents₂, created, recycled⟩ :=
            represents.resolveRoot start
          obtain ⟨forest', walked, represents', created', recycled'⟩ := ih
            [(tree.precede done).resolve start] steps
            (some (tree.rootId (sizeAll old + sizeAll done))) forest₂ enough' represents₂
          refine ⟨forest', ?_, by simpa [promoteOnto, marked] using represents',
            created'.trans created, recycled'.trans recycled⟩
          simp only [firstOr_cons, Forest.promoteFrom, found, Fault.ok_bind, rootNode, marked,
            if_true, adopted, updated]
          have width : sizeAll [(tree.precede done).resolve start] = sizeAll done + tree.size := by
            rw [sizeAll_cons, sizeAll_nil, Nat.add_zero, MarkedTree.size_eq, children_resolve,
              children_precede, sizeAll_append, MarkedTree.size_eq, Nat.add_assoc]
          rw [width, ← Nat.add_assoc] at walked
          have outer : promoteOnto start done (tree :: rest) =
              promoteOnto start [(tree.precede done).resolve start] rest := by
            simp [promoteOnto, marked]
          rw [walked, outer]
          cases later : rest.any bookmark with
          | true => simp [marked]
          | false =>
              rw [promoteOnto_unmarked start _ rest later]
              simp [marked, rootId, Nat.add_assoc]

/-- Promotion replaces the trees after the watermark by the fold over them and names the tree that
adopted last. -/
theorem Represents.promote {forest : Forest τ} {old new : List (MarkedTree τ)}
    (represents : forest.Represents (old ++ new)) (start stop : Nat) :
    ∃ forest', forest.promote (lastOr none 0 old) start stop =
        .ok (if new.any bookmark then firstOr none (sizeAll old) (promoteAll start stop new) else none,
          forest') ∧
      forest'.Represents (old ++ promoteAll start stop new) ∧
      forest'.created = forest.created ∧ forest'.recycled = forest.recycled := by
  have size := represents.size_eq
  have enough : new.length ≤ forest.size := by
    have := length_le_sizeAll new
    rw [size, sizeAll_append]
    omega
  have first : forest.firstAfter (lastOr none 0 old) = .ok (firstOr none (sizeAll old) new) := by
    have nodes := represents.nodes
    have headEq := represents.head
    rw [layoutAll_append, Nat.zero_add] at nodes
    rw [firstOr_append, Nat.zero_add] at headEq
    exact firstAfter_lastOr nodes headEq
  obtain ⟨forest', walked, represents', created, recycled⟩ := Represents.promoteFrom start old new []
    forest.size none forest enough represents
  rw [sizeAll_nil, Nat.add_zero] at walked
  cases marked : new.any bookmark with
  | false =>
      refine ⟨forest', ?_, ?_, created, recycled⟩
      · simp [Forest.promote, first, walked, marked]
      · rw [promoteOnto_unmarked start [] new marked] at represents'
        simpa [promoteAll, marked] using represents'
  | true =>
      cases folded : promoteOnto start [] new with
      | nil => simp [(promoteOnto_eq_nil folded).2] at marked
      | cons outer more =>
          rw [folded] at represents' walked
          obtain ⟨arena, updated, represents''⟩ := represents'.update_root
            (fun node => { node with stop := stop }) (children_widen stop outer)
            (by intros; cases outer; rfl)
          have result : promoteAll start stop new = outer.widen stop :: more := by
            simp [promoteAll, marked, folded]
          refine ⟨{ forest' with arena }, ?_, by rw [result]; exact represents'', created, recycled⟩
          have sameId : (outer.widen stop).rootId (sizeAll old) = outer.rootId (sizeAll old) := by
            rw [rootId, rootId, children_widen]
          simp [Forest.promote, first, walked, marked, updated, result, sameId]

end Forest

end PegForest
