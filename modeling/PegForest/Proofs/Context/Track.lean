import PegForest.Context.Basic
import PegForest.Proofs.Forest.Close
import PegForest.Proofs.Forest.Cover
import PegForest.Proofs.Forest.Recycle

/-!
# Contexts that track trees

A context tracks a list of backreferences and a list of sound trees when its stack holds the former
and its forest, if it builds one, represents the latter.  A text context builds nothing and tracks
any sound trees.

Since a forest is determined by its trees, so is the checkpoint of a context: the last root and the
number of backreferences.  Whatever was added after a checkpoint stands at the end of both lists,
and rewinding cuts it off again.
-/

set_option autoImplicit false

namespace PegForest.Context

open MarkedTree

variable {τ : Type}

/-- The backreferences and the trees of a context; `builds` tells tree contexts from text contexts. -/
inductive Tracks (refs : List Backref) (trees : List (MarkedTree τ)) : Bool → Context τ → Prop where
  | tree {forest : Forest τ} {log : Array Event} (represents : forest.Represents trees)
      (sound : ∀ tree ∈ trees, tree.Sound) :
      Tracks refs trees true ⟨some ⟨refs.toArray⟩, some forest, log⟩
  | text {log : Array Event} (sound : ∀ tree ∈ trees, tree.Sound) :
      Tracks refs trees false ⟨some ⟨refs.toArray⟩, none, log⟩

variable {builds : Bool} {ctx ctx' : Context τ} {refs refs' : List Backref}
  {trees trees' : List (MarkedTree τ)}

theorem Tracks.refs_eq (tracks : ctx.Tracks refs trees builds) : ctx.refs = some ⟨refs.toArray⟩ := by
  cases tracks <;> rfl

theorem Tracks.represents (tracks : ctx.Tracks refs trees true) : ctx.forestD.Represents trees := by
  cases tracks with
  | tree represents sound => exact represents

theorem Tracks.sound (tracks : ctx.Tracks refs trees builds) : ∀ tree ∈ trees, tree.Sound := by
  cases tracks <;> assumption

theorem Tracks.watermark (tracks : ctx.Tracks refs trees true) :
    ctx.watermark = lastOr none 0 trees := by
  cases tracks with
  | tree represents sound => exact represents.tail

theorem Tracks.emit (tracks : ctx.Tracks refs trees builds) (event : Event) :
    (ctx.emit event).Tracks refs trees builds := by
  cases tracks with
  | tree represents sound => exact .tree represents sound
  | text sound => exact .text sound

theorem Tracks.reset (tracks : ctx.Tracks refs trees builds) : ctx.reset.Tracks [] [] builds := by
  cases tracks with
  | tree represents sound => exact .tree represents.reset (by simp)
  | text sound => exact .text (by simp)

/-! ## Checkpoints -/

@[simp] theorem restore_toArray (refs : List Backref) (mark : Nat) :
    Backrefs.restore ⟨refs.toArray⟩ mark = ⟨(refs.take mark).toArray⟩ := by
  rw [Backrefs.restore, Backrefs.mk.injEq, ← Array.toList_inj]
  simp

theorem rewind_forest {forest forest' : Forest τ} {refs : Option Backrefs} {log : Array Event}
    {point : Checkpoint} (recycled : forest.recycleTo point.tail = .ok forest') :
    ∃ log', rewind ⟨refs, some forest, log⟩ point =
      .ok ⟨refs.map (·.restore point.mark), some forest', log'⟩ := by
  simp only [rewind, recycled, Fault.ok_bind, Fault.pure_eq_ok]
  exact ⟨_, rfl⟩

/-- Rewinding to an arbitrary checkpoint, which may come from a state that is long gone, cuts both
lists somewhere or stops. -/
theorem Tracks.rewind (tracks : ctx.Tracks refs trees builds) {point : Checkpoint}
    (rewound : ctx.rewind point = .ok ctx') :
    ∃ keep drop, trees = keep ++ drop ∧ ctx'.Tracks (refs.take point.mark) keep builds := by
  cases tracks with
  | tree represents sound =>
      rcases represents.recycleTo point.tail with
        ⟨keep, drop, forest', cut, recycled, represents', -⟩ | ⟨mark, -, -, lost⟩
      · obtain ⟨log', rewinds⟩ := rewind_forest recycled
        rw [rewinds, Option.map_some, restore_toArray, Except.ok.injEq] at rewound
        subst rewound
        exact ⟨keep, drop, cut.1,
          .tree represents' fun tree member => sound tree (by simp [cut.1, member])⟩
      · simp [Context.rewind, lost] at rewound
  | text sound =>
      rw [Context.rewind, Option.map_some, restore_toArray, Except.ok.injEq] at rewound
      subst rewound
      exact ⟨trees, [], by simp, .text sound⟩

/-- Rewinding to the checkpoint of a context that was extended gives back its lists. -/
theorem Tracks.rewind_checkpoint (before : ctx.Tracks refs trees builds)
    (after : ctx'.Tracks (refs ++ refs') (trees ++ trees') builds) :
    ∃ ctx'', ctx'.rewind ctx.checkpoint = .ok ctx'' ∧ ctx''.Tracks refs trees builds := by
  have mark : ctx.checkpoint.mark = refs.length := by
    simp [checkpoint, before.refs_eq, Backrefs.mark]
  cases after with
  | tree represents sound =>
      obtain ⟨forest'', recycled, represents', -⟩ := represents.recycleTo_lastOr
      have atTail : ctx.checkpoint.tail = lastOr none 0 trees := before.watermark
      rw [← atTail] at recycled
      obtain ⟨log', rewinds⟩ := rewind_forest recycled
      rw [rewinds, Option.map_some, restore_toArray, mark, List.take_left]
      exact ⟨_, rfl, .tree represents' before.sound⟩
  | text sound =>
      rw [Context.rewind, Option.map_some, restore_toArray, mark, List.take_left]
      exact ⟨_, rfl, .text before.sound⟩

/-! ## Backreferences -/

theorem Tracks.storeRef (tracks : ctx.Tracks refs trees builds) (name : String) (range : Range) :
    ∃ ctx', ctx.storeRef name range = .ok ctx' ∧
      ctx'.Tracks (refs ++ [⟨name, range⟩]) trees builds := by
  cases tracks with
  | tree represents sound =>
      refine ⟨_, rfl, ?_⟩
      simp only [Backrefs.store, List.push_toArray]
      exact .tree represents sound
  | text sound =>
      refine ⟨_, rfl, ?_⟩
      simp only [Backrefs.store, List.push_toArray]
      exact .text sound

theorem Tracks.getRef (tracks : ctx.Tracks refs trees builds) (name : String) :
    ctx.getRef name = match refs.reverse.find? fun entry => entry.name == name with
      | none => .error (.backrefMissing name)
      | some entry => .ok entry.range := by
  simp only [Context.getRef, tracks.refs_eq, Option.bind_some, Backrefs.get?]
  cases refs.reverse.find? fun entry => entry.name == name <;> rfl

/-! ## Building -/

theorem Tracks.close (before : ctx.Tracks refs trees builds)
    (after : ctx'.Tracks refs' (trees ++ trees') builds) {start stop : Nat} (forward : start ≤ stop)
    (covers : Covers start stop trees') (tag : Option τ) (bookmark : Bool) :
    ∃ ctx'', ctx'.close ctx.watermark tag start stop bookmark = .ok ctx'' ∧
      ctx''.Tracks refs' (trees ++ [.node tag start stop bookmark (trees'.map unmark)]) builds := by
  have sound : ∀ tree ∈ trees ++ [.node tag start stop bookmark (trees'.map unmark)], tree.Sound := by
    intro tree member
    rcases List.mem_append.mp member with old | new
    · exact before.sound tree old
    · exact (covers.close forward tag bookmark).sound tree new
  cases after with
  | tree represents sound' =>
      obtain ⟨forest', closed, represents', -⟩ := represents.close tag start stop bookmark
      simp only [Context.close, before.watermark, closed, Fault.ok_bind, Fault.pure_eq_ok]
      exact ⟨_, rfl, .tree represents' sound⟩
  | text sound' => exact ⟨_, rfl, .text sound⟩

theorem Tracks.promote (before : ctx.Tracks refs trees builds)
    (after : ctx'.Tracks refs' (trees ++ trees') builds) {start stop : Nat}
    (covers : Covers start stop trees') :
    ∃ ctx'', ctx'.promote ctx.watermark start stop = .ok ctx'' ∧
      ctx''.Tracks refs' (trees ++ promoteAll start stop trees') builds := by
  have sound : ∀ tree ∈ trees ++ promoteAll start stop trees', tree.Sound := by
    intro tree member
    rcases List.mem_append.mp member with old | new
    · exact before.sound tree old
    · exact covers.promoteAll.sound tree new
  cases after with
  | tree represents sound' =>
      obtain ⟨forest', promoted, represents', -⟩ := represents.promote start stop
      simp only [Context.promote, before.watermark, promoted, Fault.ok_bind, Fault.pure_eq_ok]
      exact ⟨_, rfl, .tree represents' sound⟩
  | text sound' => exact ⟨_, rfl, .text sound⟩

end PegForest.Context
