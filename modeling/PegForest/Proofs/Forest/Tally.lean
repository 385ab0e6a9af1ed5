import PegForest.Forest.Promote
import PegForest.Forest.Recycle
import PegForest.Proofs.Fault

/-!
# What a forest has counted

A forest counts the nodes that it creates and the nodes that it takes back.  Relinking changes neither
count nor the number of nodes, closing creates one node, and taking back counts what it removes, so
the nodes that were created and not taken back are those that are there.  None of this asks how the
nodes are linked.
-/

set_option autoImplicit false

namespace PegForest

namespace Forest

variable {τ : Type}

/-- The nodes that were created and not taken back are there. -/
def Balanced (forest : Forest τ) : Prop :=
  forest.created = forest.recycled + forest.size

structure SameTally (forest forest' : Forest τ) : Prop where
  created : forest'.created = forest.created
  recycled : forest'.recycled = forest.recycled
  size : forest'.size = forest.size

theorem SameTally.refl (forest : Forest τ) : SameTally forest forest :=
  ⟨rfl, rfl, rfl⟩

theorem SameTally.trans {forest forest' forest'' : Forest τ} (same : SameTally forest forest')
    (same' : SameTally forest' forest'') : SameTally forest forest'' :=
  ⟨same'.created.trans same.created, same'.recycled.trans same.recycled, same'.size.trans same.size⟩

theorem SameTally.balanced {forest forest' : Forest τ} (same : SameTally forest forest')
    (balanced : forest.Balanced) : forest'.Balanced := by
  rw [Balanced, same.created, same.recycled, same.size]
  exact balanced

theorem SameTally.bind {forest : Forest τ} {change : Except Fault (Forest τ)}
    {next : Forest τ → Except Fault (Forest τ)} (changed : Yields forest.SameTally change)
    (goesOn : ∀ forest', Yields forest'.SameTally (next forest')) :
    Yields forest.SameTally (change >>= next) := by
  refine Yields.bind changed fun forest' same => ?_
  intro forest'' returned
  exact same.trans (goesOn forest' forest'' returned)

variable (forest : Forest τ)

theorem update_tally (id : NodeId) (change : Node τ → Node τ) :
    Yields forest.SameTally (forest.update id change) := by
  obtain ⟨⟨slabs, current, capacity, size⟩, head, tail, created, recycled⟩ := forest
  by_cases live : id < size
  · simp only [update, Arena.modify, if_pos live]
    exact .ok ⟨rfl, rfl, rfl⟩
  · simp only [update, Arena.modify, if_neg live]
    exact .error _

theorem linkAfter_tally (watermark next : Option NodeId) :
    Yields forest.SameTally (forest.linkAfter watermark next) := by
  cases watermark with
  | none => exact .ok ⟨rfl, rfl, rfl⟩
  | some mark => exact forest.update_tally mark _

theorem updateSiblings_tally (change : Node τ → Node τ) (upto : Option NodeId) (steps : Nat) :
    ∀ first (forest : Forest τ),
      Yields forest.SameTally (updateSiblings change upto steps first forest) := by
  induction steps with
  | zero =>
      intro first forest
      cases first with
      | none => exact .ok (.refl forest)
      | some id =>
          unfold updateSiblings
          split
          · exact .ok (.refl forest)
          · exact .error _
  | succ steps ih =>
      intro first forest
      cases first with
      | none => exact .ok (.refl forest)
      | some id =>
          unfold updateSiblings
          split
          · exact .ok (.refl forest)
          · exact .bind_any fun node => SameTally.bind (forest.update_tally id change) (ih node.next)

theorem adoptPreceding_tally (watermark : Option NodeId) (id : NodeId) :
    Yields forest.SameTally (forest.adoptPreceding watermark id) := by
  have relinked : ∀ (first : NodeId) (change change' : Node τ → Node τ) (forest : Forest τ),
      Yields forest.SameTally (do
        let forest ← forest.update first change
        let forest ← forest.update id change'
        forest.linkAfter watermark (some id)) := by
    intro first change change' forest
    apply SameTally.bind (forest.update_tally first change)
    intro forest
    apply SameTally.bind (forest.update_tally id change')
    intro forest
    exact forest.linkAfter_tally watermark _
  unfold adoptPreceding
  apply Yields.bind_any
  intro first
  cases first with
  | none => exact .ok (.refl forest)
  | some first =>
      dsimp only
      split
      · exact .ok (.refl forest)
      · apply Yields.bind_any
        intro node
        cases node.prev with
        | none => exact .error _
        | some before =>
            apply SameTally.bind (updateSiblings_tally _ _ _ _ _)
            intro forest
            apply SameTally.bind (forest.update_tally before _)
            intro forest
            cases node.firstChild with
            | none =>
                apply SameTally.bind (forest.update_tally id _)
                exact relinked first _ _
            | some child =>
                apply SameTally.bind (forest.update_tally child _)
                exact relinked first _ _

theorem promoteFrom_tally (watermark : Option NodeId) (start steps : Nat) :
    ∀ first promoted (forest : Forest τ), Yields (fun found => forest.SameTally found.2)
      (promoteFrom watermark start steps first promoted forest) := by
  induction steps with
  | zero =>
      intro first promoted forest
      cases first with
      | none => exact .ok (.refl forest)
      | some id => exact .error _
  | succ steps ih =>
      intro first promoted forest
      cases first with
      | none => exact .ok (.refl forest)
      | some id =>
          apply Yields.bind_any
          intro node
          split
          · refine .bind (forest.adoptPreceding_tally watermark id) fun forest₁ same₁ => ?_
            refine .bind (forest₁.update_tally id _) fun forest₂ same₂ => ?_
            intro found returned
            exact (same₁.trans same₂).trans (ih node.next (some id) forest₂ found returned)
          · exact ih node.next promoted forest

theorem promote_tally (watermark : Option NodeId) (start stop : Nat) :
    Yields (fun found => forest.SameTally found.2) (forest.promote watermark start stop) := by
  unfold promote
  apply Yields.bind_any
  intro first
  refine .bind (promoteFrom_tally watermark start _ _ _ _) ?_
  intro ⟨promoted, forest'⟩ same
  cases promoted with
  | none => exact .ok same
  | some outer =>
      refine .bind (forest'.update_tally outer _) fun forest'' same' => ?_
      exact .ok (same.trans same')

theorem close_balanced (balanced : forest.Balanced) (watermark : Option NodeId) (tag : Option τ)
    (start stop : Nat) (bookmark : Bool) :
    Yields Balanced (forest.close watermark tag start stop bookmark) := by
  obtain ⟨arena, head, tail, created, recycled⟩ := forest
  have grown : ∀ node, Balanced ⟨arena.alloc node, head, tail, created + 1, recycled⟩ := by
    intro node
    rw [Balanced, size, Arena.size_alloc, ← Nat.add_assoc]
    exact congrArg (· + 1) balanced
  have linked : ∀ (forest : Forest τ) (id : NodeId), forest.Balanced → Yields Balanced (do
      let forest ← forest.linkAfter watermark (some id)
      return { forest with tail := some id }) := by
    intro forest id balanced
    refine .bind (forest.linkAfter_tally watermark (some id)) fun forest' same => .ok ?_
    exact same.balanced balanced
  simp only [close, add_eq]
  refine .bind_any fun first => .bind (updateSiblings_tally _ _ _ _ _) fun forest same => ?_
  have balanced' := same.balanced (grown _)
  cases first with
  | none => exact linked forest _ balanced'
  | some first =>
      refine .bind (forest.update_tally first _) fun forest' same' => ?_
      exact linked forest' _ (same'.balanced balanced')

/-! ## Taking back -/

structure Shrinks (forest forest' : Forest τ) : Prop where
  created : forest'.created = forest.created
  recycled : forest'.recycled = forest.recycled
  size : forest'.size ≤ forest.size

theorem Shrinks.trans {forest forest' forest'' : Forest τ} (shrinks : forest.Shrinks forest')
    (shrinks' : forest'.Shrinks forest'') : forest.Shrinks forest'' :=
  ⟨shrinks'.created.trans shrinks.created, shrinks'.recycled.trans shrinks.recycled,
    Nat.le_trans shrinks'.size shrinks.size⟩

theorem size_free {α : Type} {arena : Arena α} {id : Nat} :
    Yields (fun freed => freed.2.size ≤ arena.size) (arena.free id) := by
  unfold Arena.free
  split
  · exact .error _
  · split
    · exact .ok (Nat.sub_le _ _)
    · exact .error _

theorem release_shrinks (steps : Nat) :
    ∀ pending (forest : Forest τ), Yields forest.Shrinks (release steps pending forest) := by
  induction steps with
  | zero =>
      intro pending forest
      cases pending with
      | nil => exact .ok ⟨rfl, rfl, Nat.le_refl _⟩
      | cons id pending => exact .error _
  | succ steps ih =>
      intro pending forest
      cases pending with
      | nil => exact .ok ⟨rfl, rfl, Nat.le_refl _⟩
      | cons id pending =>
          obtain ⟨arena, head, tail, created, recycled⟩ := forest
          refine .bind size_free fun freed smaller => .bind_any fun children => ?_
          intro forest' returned
          have shrinks : Shrinks ⟨arena, head, tail, created, recycled⟩
              ⟨freed.2, head, tail, created, recycled⟩ := ⟨rfl, rfl, smaller⟩
          exact shrinks.trans (ih _ _ forest' returned)

theorem dropRoots_shrinks (watermark : Option NodeId) (steps : Nat) (forest : Forest τ) :
    Yields forest.Shrinks (dropRoots watermark steps forest) := by
  fun_induction dropRoots watermark steps forest with
  | case1 => exact .ok ⟨rfl, rfl, Nat.le_refl _⟩
  | case2 => exact .ok ⟨rfl, rfl, Nat.le_refl _⟩
  | case3 => exact .error _
  | case4 => exact .error _
  | case5 forest _ top _ _ ih =>
      refine .bind_any fun node => .bind (release_shrinks _ _ _) fun forest' shrinks => ?_
      intro forest'' returned
      have cut : forest.Shrinks forest' := ⟨shrinks.created, shrinks.recycled, shrinks.size⟩
      exact cut.trans (ih forest' forest'' returned)

/-- What is taken back is counted. -/
theorem recycleTo_balanced (balanced : forest.Balanced) (watermark : Option NodeId) :
    Yields Balanced (forest.recycleTo watermark) := by
  unfold recycleTo
  refine .bind (dropRoots_shrinks watermark _ forest) fun forest' shrinks => ?_
  refine .bind (forest'.linkAfter_tally watermark none) fun forest'' same => .ok ?_
  have smaller := shrinks.size
  rw [Balanced] at balanced
  change forest''.created = forest''.recycled + (forest.size - forest''.size) + forest''.size
  rw [same.created, same.recycled, same.size, shrinks.created, shrinks.recycled]
  omega

end Forest

end PegForest
