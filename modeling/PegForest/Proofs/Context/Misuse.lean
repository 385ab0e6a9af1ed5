import PegForest.Context.Basic
import PegForest.Proofs.Fault

/-!
# Faults of contexts

Whatever is done to an arena, to a forest or to a context stops, if it does, because it was used
against its contract.  A walk along links that do not end counts as such a misuse, so only rule calls
and loops could ever be `exhausted`.
-/

set_option autoImplicit false

namespace PegForest

/-- Every fault but the one that says nothing. -/
def Fault.IsMisuse (fault : Fault) : Prop :=
  fault ≠ .exhausted

variable {α τ : Type}

section Arena

variable (arena : Arena α) (id : Nat)

theorem Arena.get_raises : Raises Fault.IsMisuse (arena.get id) := by
  unfold Arena.get
  split
  · exact .ok _
  · exact .error nofun

theorem Arena.modify_raises (change : α → α) : Raises Fault.IsMisuse (arena.modify id change) := by
  unfold Arena.modify
  split
  split
  · exact .ok _
  · exact .error nofun

theorem Arena.free_raises : Raises Fault.IsMisuse (arena.free id) := by
  unfold Arena.free
  split
  · exact .error nofun
  · split
    · exact .ok _
    · exact .error nofun

end Arena

namespace Forest

variable (forest : Forest τ)

theorem update_raises (id : NodeId) (change : Node τ → Node τ) :
    Raises Fault.IsMisuse (forest.update id change) := by
  unfold update
  split
  apply Raises.bind (Arena.modify_raises _ id change)
  intro _
  exact .ok _

theorem firstAfter_raises (watermark : Option NodeId) :
    Raises Fault.IsMisuse (forest.firstAfter watermark) := by
  cases watermark with
  | none => exact .ok _
  | some mark =>
      apply Raises.bind (Arena.get_raises _ mark)
      intro _
      exact .ok _

theorem linkAfter_raises (watermark next : Option NodeId) :
    Raises Fault.IsMisuse (forest.linkAfter watermark next) := by
  cases watermark with
  | none => exact .ok _
  | some mark => exact forest.update_raises mark _

theorem updateSiblings_raises (change : Node τ → Node τ) (upto : Option NodeId) (steps : Nat) :
    ∀ first forest, Raises Fault.IsMisuse (updateSiblings change upto steps first forest) := by
  induction steps with
  | zero =>
      intro first forest
      cases first with
      | none => exact .ok _
      | some id =>
          unfold updateSiblings
          split
          · exact .ok _
          · exact .error nofun
  | succ steps ih =>
      intro first forest
      cases first with
      | none => exact .ok _
      | some id =>
          unfold updateSiblings
          split
          · exact .ok _
          · apply Raises.bind (Arena.get_raises _ id)
            intro node
            apply Raises.bind (forest.update_raises id change)
            exact ih node.next

theorem siblingsFrom_raises (steps : Nat) :
    ∀ first, Raises Fault.IsMisuse (forest.siblingsFrom steps first) := by
  induction steps with
  | zero =>
      intro first
      cases first with
      | none => exact .ok _
      | some id => exact .error nofun
  | succ steps ih =>
      intro first
      cases first with
      | none => exact .ok _
      | some id =>
          apply Raises.bind (Arena.get_raises _ id)
          intro node
          apply Raises.bind (ih node.next)
          intro _
          exact .ok _

theorem close_raises (watermark : Option NodeId) (tag : Option τ) (start stop : Nat)
    (bookmark : Bool) : Raises Fault.IsMisuse (forest.close watermark tag start stop bookmark) := by
  unfold close
  apply Raises.bind (forest.firstAfter_raises watermark)
  intro first
  apply Raises.bind (updateSiblings_raises _ _ _ _ _)
  intro forest
  cases first with
  | none =>
      apply Raises.bind (forest.linkAfter_raises watermark _)
      intro _
      exact .ok _
  | some first =>
      apply Raises.bind (forest.update_raises first _)
      intro forest
      apply Raises.bind (forest.linkAfter_raises watermark _)
      intro _
      exact .ok _

theorem adoptPreceding_raises (watermark : Option NodeId) (id : NodeId) :
    Raises Fault.IsMisuse (forest.adoptPreceding watermark id) := by
  have relinked : ∀ (first : NodeId) (change change' : Node τ → Node τ) (forest : Forest τ),
      Raises Fault.IsMisuse (do
        let forest ← forest.update first change
        let forest ← forest.update id change'
        forest.linkAfter watermark (some id)) := by
    intro first change change' forest
    apply Raises.bind (forest.update_raises first change)
    intro forest
    apply Raises.bind (forest.update_raises id change')
    intro forest
    exact forest.linkAfter_raises watermark _
  unfold adoptPreceding
  apply Raises.bind (forest.firstAfter_raises watermark)
  intro first
  cases first with
  | none => exact .ok _
  | some first =>
      dsimp only
      split
      · exact .ok _
      · apply Raises.bind (Arena.get_raises _ id)
        intro node
        cases node.prev with
        | none => exact .error nofun
        | some before =>
            apply Raises.bind (updateSiblings_raises _ _ _ _ _)
            intro forest
            apply Raises.bind (forest.update_raises before _)
            intro forest
            cases node.firstChild with
            | none =>
                apply Raises.bind (forest.update_raises id _)
                intro forest
                exact relinked first _ _ forest
            | some child =>
                apply Raises.bind (forest.update_raises child _)
                intro forest
                exact relinked first _ _ forest

theorem promoteFrom_raises (watermark : Option NodeId) (start steps : Nat) :
    ∀ first promoted (forest : Forest τ),
      Raises Fault.IsMisuse (promoteFrom watermark start steps first promoted forest) := by
  induction steps with
  | zero =>
      intro first promoted forest
      cases first with
      | none => exact .ok _
      | some id => exact .error nofun
  | succ steps ih =>
      intro first promoted forest
      cases first with
      | none => exact .ok _
      | some id =>
          apply Raises.bind (Arena.get_raises _ id)
          intro node
          split
          · apply Raises.bind (forest.adoptPreceding_raises watermark id)
            intro forest
            apply Raises.bind (forest.update_raises id _)
            exact ih node.next (some id)
          · exact ih node.next promoted forest

theorem promote_raises (watermark : Option NodeId) (start stop : Nat) :
    Raises Fault.IsMisuse (forest.promote watermark start stop) := by
  unfold promote
  apply Raises.bind (forest.firstAfter_raises watermark)
  intro first
  apply Raises.bind (promoteFrom_raises watermark start _ _ _ _)
  intro found
  obtain ⟨promoted, forest⟩ := found
  cases promoted with
  | none => exact .ok _
  | some outer =>
      apply Raises.bind (forest.update_raises outer _)
      intro _
      exact .ok _

theorem release_raises (steps : Nat) :
    ∀ pending (forest : Forest τ), Raises Fault.IsMisuse (release steps pending forest) := by
  induction steps with
  | zero =>
      intro pending forest
      cases pending with
      | nil => exact .ok _
      | cons id pending => exact .error nofun
  | succ steps ih =>
      intro pending forest
      cases pending with
      | nil => exact .ok _
      | cons id pending =>
          obtain ⟨arena, head, tail, created, recycled⟩ := forest
          apply Raises.bind (arena.free_raises id)
          intro freed
          obtain ⟨node, arena⟩ := freed
          apply Raises.bind (siblingsFrom_raises _ _ node.firstChild)
          intro children
          exact ih _ _

theorem dropRoots_raises (watermark : Option NodeId) (steps : Nat) (forest : Forest τ) :
    Raises Fault.IsMisuse (dropRoots watermark steps forest) := by
  fun_induction dropRoots watermark steps forest with
  | case1 => exact .ok _
  | case2 => exact .ok _
  | case3 => exact .error nofun
  | case4 => exact .error nofun
  | case5 _ _ top _ _ ih =>
      apply Raises.bind (Arena.get_raises _ top)
      intro node
      apply Raises.bind (release_raises _ _ _)
      exact ih

theorem recycleTo_raises (watermark : Option NodeId) :
    Raises Fault.IsMisuse (forest.recycleTo watermark) := by
  unfold recycleTo
  apply Raises.bind (dropRoots_raises watermark _ _)
  intro forest
  apply Raises.bind (forest.linkAfter_raises watermark none)
  intro _
  exact .ok _

end Forest

namespace Context

variable (ctx : Context τ)

theorem rewind_raises (point : Checkpoint) : Raises Fault.IsMisuse (ctx.rewind point) := by
  obtain ⟨refs, forest, log⟩ := ctx
  cases forest with
  | none => exact .ok _
  | some forest =>
      apply Raises.bind (forest.recycleTo_raises point.tail)
      intro _
      exact .ok _

theorem close_raises (watermark : Option NodeId) (tag : Option τ) (start stop : Nat)
    (bookmark : Bool) : Raises Fault.IsMisuse (ctx.close watermark tag start stop bookmark) := by
  obtain ⟨refs, forest, log⟩ := ctx
  cases forest with
  | none => exact .ok _
  | some forest =>
      apply Raises.bind (forest.close_raises watermark tag start stop bookmark)
      intro _
      exact .ok _

theorem promote_raises (watermark : Option NodeId) (start stop : Nat) :
    Raises Fault.IsMisuse (ctx.promote watermark start stop) := by
  obtain ⟨refs, forest, log⟩ := ctx
  cases forest with
  | none => exact .ok _
  | some forest =>
      apply Raises.bind (forest.promote_raises watermark start stop)
      intro _
      exact .ok _

theorem storeRef_raises (name : String) (range : Range) :
    Raises Fault.IsMisuse (ctx.storeRef name range) := by
  obtain ⟨refs, forest, log⟩ := ctx
  cases refs with
  | none => exact .error nofun
  | some refs => exact .ok _

theorem getRef_raises (name : String) : Raises Fault.IsMisuse (ctx.getRef name) := by
  unfold getRef
  split
  · exact .ok _
  · exact .error nofun

end Context

/-! ## Inputs -/

theorem slice_raises (source : Array α) (start stop : Nat) :
    Raises Fault.IsMisuse (slice source start stop) := by
  unfold slice
  split
  · exact .ok _
  · exact .error nofun

end PegForest
