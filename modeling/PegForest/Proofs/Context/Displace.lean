import PegForest.Context.Basic
import PegForest.Proofs.Context.Misuse
import PegForest.Proofs.Forest.Displace

/-!
# Contexts further into the input

A context is the displaced context of another one when it holds the same with all ranges, of
backreferences and of nodes, further into the input by the same number of atoms.  Their logs may
begin differently; what was reported since is the same, but for the slabs of the arenas.

Checkpoints hold no ranges.  So displaced contexts have the same checkpoints, and going back, storing
and building keep them displaced or stop on both in the same way.
-/

set_option autoImplicit false

namespace PegForest

/-! ## What is reported -/

namespace Event

def steady : Event → Option Event
  | .slabAppended _ => none
  | .treeReset nodes _ created recycled => some (.treeReset nodes 0 created recycled)
  | event => some event

theorem steady_ofGrowth (before after : Nat) : (ofGrowth before after).filterMap steady = [] := by
  unfold ofGrowth
  split <;> rfl

/-- Since the logs were these, the same was reported apart from slabs. -/
def AlikeSince (base base' log log' : Array Event) : Prop :=
  ∃ events events', log.toList = base.toList ++ events ∧ log'.toList = base'.toList ++ events' ∧
    events.filterMap steady = events'.filterMap steady

namespace AlikeSince

variable {base base' log log' : Array Event}

theorem refl (base base' : Array Event) : AlikeSince base base' base base' :=
  ⟨[], [], by simp, by simp, rfl⟩

theorem append (alike : AlikeSince base base' log log') (events events' : List Event)
    (same : events.filterMap steady = events'.filterMap steady) :
    AlikeSince base base' (log ++ events) (log' ++ events') := by
  obtain ⟨since, since', whole, whole', before⟩ := alike
  refine ⟨since ++ events, since' ++ events', ?_, ?_, ?_⟩
  · rw [Array.toList_appendList, whole, List.append_assoc]
  · rw [Array.toList_appendList, whole', List.append_assoc]
  · rw [List.filterMap_append, List.filterMap_append, before, same]

theorem push {event event' : Event} (alike : AlikeSince base base' log log')
    (same : event.steady = event'.steady) :
    AlikeSince base base' (log.push event) (log'.push event') := by
  have appended := alike.append [event] [event']
    (by rw [List.filterMap_cons, List.filterMap_cons, same])
  simpa using appended

end AlikeSince

end Event

/-! ## What is stored -/

def Range.displace (ahead : Nat) (range : Range) : Range :=
  ⟨range.start + ahead, range.stop + ahead⟩

def Backref.displace (ahead : Nat) (entry : Backref) : Backref :=
  ⟨entry.name, entry.range.displace ahead⟩

namespace Backrefs

def displace (ahead : Nat) (refs : Backrefs) : Backrefs :=
  ⟨refs.entries.map (Backref.displace ahead)⟩

variable (ahead : Nat) (refs : Backrefs)

theorem displace_empty : Backrefs.empty.displace ahead = .empty := by
  simp [displace, empty]

theorem displace_zero : displace 0 = id := by
  funext refs
  have same : Backref.displace 0 = id := rfl
  rw [displace, same, Array.map_id]
  rfl

theorem mark_displace : (refs.displace ahead).mark = refs.mark := by
  rw [mark, mark, displace, Array.size_map]

theorem restore_displace (mark : Nat) :
    (refs.displace ahead).restore mark = (refs.restore mark).displace ahead := by
  simp only [restore, displace, mk.injEq]
  apply Array.toList_inj.mp
  simp

theorem store_displace (name : String) (range : Range) :
    (refs.displace ahead).store name (range.displace ahead) =
      (refs.store name range).displace ahead := by
  simp [store, displace, Backref.displace]

theorem get?_displace (name : String) :
    (refs.displace ahead).get? name = (refs.get? name).map (Range.displace ahead) := by
  simp only [get?, displace, Array.toList_map, ← List.map_reverse, List.find?_map, Option.map_map]
  rfl

end Backrefs

/-! ## Contexts -/

variable {τ : Type}

namespace Context

/-- The context is the other one, with all ranges `ahead` atoms further into the input, and since
the logs were `base` and `base'` the same was reported. -/
structure Displaced (ahead : Nat) (base base' : Array Event) (ctx ctx' : Context τ) : Prop where
  refs : ctx.refs = ctx'.refs.map (Backrefs.displace ahead)
  forest : Option.Rel (Forest.Displaced ahead) ctx.forest ctx'.forest
  log : Event.AlikeSince base base' ctx.log ctx'.log

namespace Displaced

variable {ahead : Nat} {base base' : Array Event} {ctx ctx' : Context τ}

theorem watermark_eq (displaced : Displaced ahead base base' ctx ctx') :
    ctx.watermark = ctx'.watermark := by
  obtain ⟨refs, forest, log⟩ := ctx
  obtain ⟨refs', forest', log'⟩ := ctx'
  cases displaced.forest with
  | none => rfl
  | some forests => exact forests.tail

theorem checkpoint_eq (displaced : Displaced ahead base base' ctx ctx') :
    ctx.checkpoint = ctx'.checkpoint := by
  unfold checkpoint
  rw [displaced.watermark_eq, displaced.refs, Option.map_map]
  cases ctx'.refs with
  | none => rfl
  | some refs' => simp [Backrefs.mark_displace]

theorem emit {event event' : Event} (displaced : Displaced ahead base base' ctx ctx')
    (same : event.steady = event'.steady) :
    Displaced ahead base base' (ctx.emit event) (ctx'.emit event') :=
  ⟨displaced.refs, displaced.forest, displaced.log.push same⟩

theorem reset (displaced : Displaced ahead base base' ctx ctx') :
    Displaced ahead base base' ctx.reset ctx'.reset := by
  obtain ⟨refs, forest, log⟩ := ctx
  obtain ⟨refs', forest', log'⟩ := ctx'
  obtain ⟨rfl, forests, alike⟩ := displaced
  have emptied : (refs'.map (Backrefs.displace ahead)).map (fun _ => Backrefs.empty) =
      (refs'.map fun _ => Backrefs.empty).map (Backrefs.displace ahead) := by
    cases refs' <;> simp [Backrefs.displace_empty]
  cases forests with
  | none => exact ⟨emptied, .none, alike⟩
  | some forests =>
      refine ⟨emptied, .some forests.reset, alike.push ?_⟩
      simp only [Event.steady, forests.size_eq, forests.created, forests.recycled]

theorem rewind (displaced : Displaced ahead base base' ctx ctx') (point : Checkpoint) :
    Agree (Displaced ahead base base') (ctx.rewind point) (ctx'.rewind point) := by
  obtain ⟨refs, forest, log⟩ := ctx
  obtain ⟨refs', forest', log'⟩ := ctx'
  obtain ⟨rfl, forests, alike⟩ := displaced
  have restored : (refs'.map (Backrefs.displace ahead)).map (·.restore point.mark) =
      (refs'.map (·.restore point.mark)).map (Backrefs.displace ahead) := by
    cases refs' with
    | none => rfl
    | some refs' => exact congrArg some (refs'.restore_displace ahead point.mark)
  cases forests with
  | none => exact .ok ⟨restored, .none, alike⟩
  | some forests =>
      apply (forests.recycleTo point.tail).bind
      intro forest forest' _ recycled
      refine .ok ⟨restored, .some recycled, ?_⟩
      dsimp only
      rw [forests.size_eq, recycled.size_eq]
      split
      · exact alike.push rfl
      · exact alike

theorem storeRef (displaced : Displaced ahead base base' ctx ctx') (name : String) (range : Range) :
    Agree (Displaced ahead base base') (ctx.storeRef name (range.displace ahead))
      (ctx'.storeRef name range) := by
  obtain ⟨refs, forest, log⟩ := ctx
  obtain ⟨refs', forest', log'⟩ := ctx'
  obtain ⟨rfl, forests, alike⟩ := displaced
  cases refs' with
  | none => exact .error _
  | some refs' => exact .ok ⟨congrArg some (refs'.store_displace ahead name range), forests, alike⟩

theorem getRef (displaced : Displaced ahead base base' ctx ctx') (name : String) :
    Agree (fun range range' => range = range'.displace ahead) (ctx.getRef name)
      (ctx'.getRef name) := by
  unfold Context.getRef
  rw [displaced.refs]
  cases ctx'.refs with
  | none => exact .error _
  | some refs' =>
      rw [Option.map_some, Option.bind_some, Option.bind_some, Backrefs.get?_displace]
      cases refs'.get? name with
      | none => exact .error _
      | some range => exact .ok rfl

theorem close (displaced : Displaced ahead base base' ctx ctx') (watermark : Option NodeId)
    (tag : Option τ) (start stop : Nat) (bookmark : Bool) :
    Agree (Displaced ahead base base')
      (ctx.close watermark tag (start + ahead) (stop + ahead) bookmark)
      (ctx'.close watermark tag start stop bookmark) := by
  obtain ⟨refs, forest, log⟩ := ctx
  obtain ⟨refs', forest', log'⟩ := ctx'
  obtain ⟨stored, forests, alike⟩ := displaced
  cases forests with
  | none => exact .ok ⟨stored, .none, alike⟩
  | some forests =>
      apply (forests.close watermark tag start stop bookmark).bind
      intro forest forest' _ closed
      refine .ok ⟨stored, .some closed, alike.append _ _ ?_⟩
      rw [Event.steady_ofGrowth, Event.steady_ofGrowth]

theorem promote (displaced : Displaced ahead base base' ctx ctx') (watermark : Option NodeId)
    (start stop : Nat) :
    Agree (Displaced ahead base base') (ctx.promote watermark (start + ahead) (stop + ahead))
      (ctx'.promote watermark start stop) := by
  obtain ⟨refs, forest, log⟩ := ctx
  obtain ⟨refs', forest', log'⟩ := ctx'
  obtain ⟨stored, forests, alike⟩ := displaced
  cases forests with
  | none => exact .ok ⟨stored, .none, alike⟩
  | some forests =>
      apply (forests.promote watermark start stop).bind
      rintro ⟨promoted, forest⟩ ⟨promoted', forest'⟩ - ⟨-, promotes⟩
      exact .ok ⟨stored, .some promotes, alike⟩

end Displaced

/-! ## Ranges that are kept -/

def Keeps (inside : Range → Prop) (ctx : Context τ) : Prop :=
  ∀ refs, ctx.refs = some refs → ∀ entry ∈ refs.entries, inside entry.range

namespace Keeps

variable {inside : Range → Prop} {ctx : Context τ}

theorem of_refs {ctx' : Context τ} (keeps : ctx.Keeps inside) (same : ctx'.refs = ctx.refs) :
    ctx'.Keeps inside := by
  intro refs stored
  exact keeps refs (same.symm.trans stored)

theorem rewind (keeps : ctx.Keeps inside) (point : Checkpoint) :
    Yields (Keeps inside) (ctx.rewind point) := by
  obtain ⟨refs, forest, log⟩ := ctx
  have restored : ∀ forest' log', Keeps inside
      (⟨refs.map (·.restore point.mark), forest', log'⟩ : Context τ) := by
    intro forest' log' refs' same entry member
    obtain ⟨before, rfl, rfl⟩ := Option.map_eq_some_iff.mp same
    rw [Backrefs.restore, ← Array.mem_toList_iff, Array.toList_shrink] at member
    exact keeps before rfl entry (Array.mem_toList_iff.mp (List.mem_of_mem_take member))
  cases forest with
  | none => exact .ok (restored _ _)
  | some forest =>
      apply Yields.bind_any
      intro forest'
      exact .ok (restored _ _)

theorem close (keeps : ctx.Keeps inside) (watermark : Option NodeId) (tag : Option τ)
    (start stop : Nat) (bookmark : Bool) :
    Yields (Keeps inside) (ctx.close watermark tag start stop bookmark) := by
  obtain ⟨refs, forest, log⟩ := ctx
  cases forest with
  | none => exact .ok keeps
  | some forest =>
      apply Yields.bind_any
      intro forest'
      exact .ok (keeps.of_refs rfl)

theorem promote (keeps : ctx.Keeps inside) (watermark : Option NodeId) (start stop : Nat) :
    Yields (Keeps inside) (ctx.promote watermark start stop) := by
  obtain ⟨refs, forest, log⟩ := ctx
  cases forest with
  | none => exact .ok keeps
  | some forest =>
      apply Yields.bind_any
      intro promoted
      exact .ok (keeps.of_refs rfl)

theorem storeRef (keeps : ctx.Keeps inside) (name : String) {range : Range} (fits : inside range) :
    Yields (Keeps inside) (ctx.storeRef name range) := by
  obtain ⟨refs, forest, log⟩ := ctx
  cases refs with
  | none => exact .error _
  | some refs =>
      apply Yields.ok
      rintro _ ⟨⟩ entry member
      rcases Array.mem_push.mp member with old | rfl
      · exact keeps refs rfl entry old
      · exact fits

theorem getRef (keeps : ctx.Keeps inside) (name : String) : Yields inside (ctx.getRef name) := by
  unfold Context.getRef
  split
  · next range found =>
      apply Yields.ok
      obtain ⟨refs, stored, last⟩ := Option.bind_eq_some_iff.mp found
      obtain ⟨entry, found', rfl⟩ := Option.map_eq_some_iff.mp last
      have member := List.mem_reverse.mp (List.mem_of_find?_eq_some found')
      exact keeps refs stored entry (Array.mem_toList_iff.mp member)
  · exact .error _

end Keeps

/-! ## Relations that last -/

/-- Relations of faults and of contexts that last when both contexts go back to a checkpoint or
build the same, the first one `ahead` atoms further into the input. -/
structure LastingAhead (ahead : Nat) (stops : Fault → Fault → Prop)
    (R : Context τ → Context τ → Prop) : Prop where
  misused : ∀ {fault}, fault.IsMisuse → stops fault fault
  rewind : ∀ {before before' ctx ctx'}, R before before' → R ctx ctx' →
    Concur stops R (ctx.rewind before.checkpoint) (ctx'.rewind before'.checkpoint)
  close : ∀ {before before' ctx ctx'} (tag : Option τ) (start stop : Nat) (bookmark : Bool),
    R before before' → R ctx ctx' →
    Concur stops R
      (ctx.close before.watermark tag (start + ahead) (stop + ahead) bookmark)
      (ctx'.close before'.watermark tag start stop bookmark)
  promote : ∀ {before before' ctx ctx'} (start stop : Nat), R before before' → R ctx ctx' →
    Concur stops R (ctx.promote before.watermark (start + ahead) (stop + ahead))
      (ctx'.promote before'.watermark start stop)

section Lasting

variable {ahead : Nat} {stops : Fault → Fault → Prop} {R : Context τ → Context τ → Prop}

theorem LastingAhead.keeping (lasting : LastingAhead ahead stops R) (inside : Range → Prop) :
    LastingAhead ahead stops (fun ctx ctx' => R ctx ctx' ∧ ctx'.Keeps inside) where
  misused := lasting.misused
  rewind := by
    intro before before' ctx ctx' related related'
    exact (lasting.rewind related.1 related'.1).and_right (related'.2.rewind _)
  close := by
    intro before before' ctx ctx' tag start stop bookmark related related'
    exact (lasting.close tag start stop bookmark related.1 related'.1).and_right
      (related'.2.close _ tag start stop bookmark)
  promote := by
    intro before before' ctx ctx' start stop related related'
    exact (lasting.promote start stop related.1 related'.1).and_right
      (related'.2.promote _ start stop)

theorem lastingAhead_displaced (same : ∀ fault, stops fault fault) (base base' : Array Event) :
    LastingAhead ahead stops (Displaced ahead base base' : Context τ → Context τ → Prop) where
  misused := fun _ => same _
  rewind := by
    intro before before' ctx ctx' related related'
    rw [related.checkpoint_eq]
    exact (related'.rewind _).concur same
  close := by
    intro before before' ctx ctx' tag start stop bookmark related related'
    rw [related.watermark_eq]
    exact (related'.close _ tag start stop bookmark).concur same
  promote := by
    intro before before' ctx ctx' start stop related related'
    rw [related.watermark_eq]
    exact (related'.promote _ start stop).concur same

end Lasting

end Context

end PegForest
