import PegForest.Proofs.Context.Displace
import PegForest.Proofs.Context.Misuse
import PegForest.Proofs.Matcher.MapAtoms
import PegForest.Proofs.Matcher.Part
import PegForest.Proofs.Reading.Advance

/-!
# Actions further into the input

Two actions go alike, the first one `ahead` atoms further into its input than the second one, when
from related contexts they come to places or to failures that are again so far apart, and leave
related contexts behind.  It does not matter where the contexts come from, so nothing is known about
what they hold: all that is asked of the relation is that it lasts when both contexts are changed in
the same way, each at its own place.

Along with it goes where a match may be.  A place that is reached lies between the place before it
and the limit of the window, and a failure is reported between the two as well.  Only a matcher that
says itself where it fails may name another offset of the input.
-/

set_option autoImplicit false

namespace PegForest

/-- Two comparators that take an atom for its key: they order alike, and a range that is empty is
empty for both, though it is named by other atoms. -/
structure Comparator.Keyed {α β : Type} [Atom α] [Atom β] (stops : Fault → Fault → Prop)
    (order : Comparator α) (key : α → β) (order' : Comparator β) : Prop where
  compares : ∀ a b, order' (key a) (key b) = order a b
  emptyRange : ∀ low high, stops (.emptyRange (Atom.describe low) (Atom.describe high))
    (.emptyRange (Atom.describe (key low)) (Atom.describe (key high)))

/-- A window and the first place in it that is of interest; in a strict zone a failure is reported
nowhere before the place of the match and nowhere beyond the limit. -/
structure Zone (α : Type) extends Window α where
  low : Nat
  strict : Prop
  inside : limit ≤ source.size

namespace Zone

variable {α β τ : Type} {zone : Zone α} {ahead cursor next offset : Nat}
  {R : Context τ → Context τ → Prop} {stops : Fault → Fault → Prop}

def Holds (zone : Zone α) (cursor : Nat) : Prop :=
  zone.low ≤ cursor ∧ cursor ≤ zone.limit

def Fails (zone : Zone α) (cursor offset : Nat) : Prop :=
  offset ≤ zone.source.size ∧ (zone.strict → cursor ≤ offset ∧ offset ≤ zone.limit)

theorem Holds.later (holds : zone.Holds cursor) (forward : cursor ≤ next)
    (bounded : next ≤ zone.limit) : zone.Holds next :=
  ⟨Nat.le_trans holds.1 forward, bounded⟩

theorem Holds.fails (holds : zone.Holds cursor) : zone.Fails cursor cursor :=
  ⟨Nat.le_trans holds.2 zone.inside, fun _ => ⟨Nat.le_refl cursor, holds.2⟩⟩

theorem Fails.earlier (fails : zone.Fails next offset) (forward : cursor ≤ next) :
    zone.Fails cursor offset :=
  ⟨fails.1, fun strict => ⟨Nat.le_trans forward (fails.2 strict).1, (fails.2 strict).2⟩⟩

theorem Fails.max {furthest : Nat} (fails : zone.Fails cursor offset)
    (fails' : zone.Fails cursor furthest) : zone.Fails cursor (max offset furthest) := by
  rcases Nat.le_total offset furthest with sooner | later
  · rw [Nat.max_eq_right sooner]
    exact fails'
  · rw [Nat.max_eq_left later]
    exact fails

inductive AnswersAhead (zone : Zone α) (ahead : Nat) (R : Context τ → Context τ → Prop)
    (cursor : Nat) : Verdict × Context τ → Verdict × Context τ → Prop where
  | matched {next : Nat} {ctx ctx' : Context τ} (forward : cursor ≤ next)
      (bounded : next + ahead ≤ zone.limit) (related : R ctx ctx') :
      AnswersAhead zone ahead R cursor (.matched (next + ahead), ctx) (.matched next, ctx')
  | failed {offset : Nat} {ctx ctx' : Context τ}
      (falls : zone.Fails (cursor + ahead) (offset + ahead)) (related : R ctx ctx') :
      AnswersAhead zone ahead R cursor (.failed (offset + ahead), ctx) (.failed offset, ctx')

theorem AnswersAhead.stays {ctx ctx' : Context τ} (holds : zone.Holds (cursor + ahead))
    (related : R ctx ctx') :
    zone.AnswersAhead ahead R cursor (.matched (cursor + ahead), ctx) (.matched cursor, ctx') :=
  .matched (Nat.le_refl cursor) holds.2 related

theorem AnswersAhead.earlier {answer answer' : Verdict × Context τ}
    (answers : zone.AnswersAhead ahead R next answer answer') (forward : cursor ≤ next) :
    zone.AnswersAhead ahead R cursor answer answer' := by
  cases answers with
  | matched forward' bounded related =>
      exact .matched (Nat.le_trans forward forward') bounded related
  | failed falls related =>
      exact .failed (falls.earlier (Nat.add_le_add_right forward ahead)) related

structure Views (zone : Zone α) (ahead : Nat) (stops : Fault → Fault → Prop) (key : α → β)
    (window : Window β) : Prop where
  limit : zone.limit = window.limit + ahead
  peek? : ∀ cursor, zone.low ≤ cursor + ahead →
    window.peek? cursor = (zone.peek? (cursor + ahead)).map key
  advance : ∀ count cursor, stops (.advancePastLimit count zone.limit (cursor + ahead))
    (.advancePastLimit count window.limit cursor)
  named : ¬zone.strict → ahead = 0 ∧ window.source.size = zone.source.size

theorem left_eq {window : Window β} (limits : zone.limit = window.limit + ahead) (cursor : Nat) :
    zone.left (cursor + ahead) = window.left cursor := by
  rw [Window.left, Window.left, limits, Nat.add_sub_add_right]

end Zone

structure Context.SharesAhead {α β τ : Type} (ahead : Nat) (stops : Fault → Fault → Prop)
    (R : Context τ → Context τ → Prop) (zone : Zone α) (key : α → β) (window : Window β) :
    Prop where
  storeRef : ∀ {ctx ctx'} (name : String) {start stop : Nat}, zone.low ≤ start + ahead →
    start ≤ stop → stop + ahead ≤ zone.limit → R ctx ctx' →
    Concur stops R (ctx.storeRef name ⟨start + ahead, stop + ahead⟩)
      (ctx'.storeRef name ⟨start, stop⟩)
  stored : ∀ {ctx ctx'} (name : String), R ctx ctx' →
    Concur stops (fun atoms atoms' => atoms' = atoms.map key)
      (ctx.getRef name >>= fun range => slice zone.source range.start range.stop)
      (ctx'.getRef name >>= fun range => slice window.source range.start range.stop)

namespace Action

variable {α τ : Type} {zone : Zone α} {ahead : Nat} {stops : Fault → Fault → Prop}
  {R : Context τ → Context τ → Prop}

/-- The actions answer alike from related contexts, the first one at every place of the zone and the
second one `ahead` atoms before it. -/
def RespectsAhead (ahead : Nat) (stops : Fault → Fault → Prop) (R : Context τ → Context τ → Prop)
    (zone : Zone α) (action other : Action τ) : Prop :=
  ∀ ctx ctx' cursor, zone.Holds (cursor + ahead) → R ctx ctx' →
    Concur stops (zone.AnswersAhead ahead R cursor) (action ctx (cursor + ahead))
      (other ctx' cursor)

variable {action first second last item separator closing action' first' second' last' item'
  separator' closing' : Action τ}

theorem respectsAhead_succeed : RespectsAhead ahead stops R zone succeed succeed := by
  intro ctx ctx' cursor holds related
  exact .ok (.stays holds related)

theorem respectsAhead_stop {fault : Fault} (related : stops fault fault) :
    RespectsAhead ahead stops R zone (stop fault) (stop fault) := by
  intro ctx ctx' cursor _ _
  exact .error related

theorem RespectsAhead.andThen (respects : RespectsAhead ahead stops R zone first first')
    (respects' : RespectsAhead ahead stops R zone second second') :
    RespectsAhead ahead stops R zone (first.andThen second) (first'.andThen second') := by
  intro ctx ctx' cursor holds related
  apply (respects ctx ctx' cursor holds related).bind
  intro _ _ answers
  cases answers with
  | matched forward bounded related' =>
      have further := holds.later (Nat.add_le_add_right forward ahead) bounded
      apply (respects' _ _ _ further related').mono
      intro _ _ answers'
      exact answers'.earlier forward
  | failed falls related' => exact .ok (.failed falls related')

theorem RespectsAhead.store {β : Type} {key : α → β} {window : Window β}
    (respects : RespectsAhead ahead stops R zone action action')
    (shares : Context.SharesAhead ahead stops R zone key window) (name : String) :
    RespectsAhead ahead stops R zone (action.store name) (action'.store name) := by
  intro ctx ctx' cursor holds related
  apply (respects ctx ctx' cursor holds related).bind
  intro _ _ answers
  cases answers with
  | matched forward bounded related' =>
      apply (shares.storeRef name holds.1 forward bounded related').bind
      intro _ _ related''
      exact .ok (.matched forward bounded related'')
  | failed falls related' => exact .ok (.failed falls related')

theorem RespectsAhead.sequence {actions actions' : List (Action τ)}
    (respects : List.Forall₂ (RespectsAhead ahead stops R zone) actions actions') :
    RespectsAhead ahead stops R zone (sequence actions) (sequence actions') := by
  induction respects with
  | nil => exact respectsAhead_succeed
  | cons here _ ih => exact here.andThen ih

theorem RespectsAhead.thenIfMoved (respects : RespectsAhead ahead stops R zone first first')
    (respects' : RespectsAhead ahead stops R zone second second') :
    RespectsAhead ahead stops R zone (first.thenIfMoved second) (first'.thenIfMoved second') := by
  intro ctx ctx' cursor holds related
  apply (respects ctx ctx' cursor holds related).bind
  intro _ _ answers
  cases answers with
  | @matched next _ _ forward bounded related' =>
      simp only [Nat.add_right_cancel_iff]
      by_cases same : next = cursor
      · simp only [if_pos same]
        exact .ok (.matched forward bounded related')
      · simp only [if_neg same]
        have further := holds.later (Nat.add_le_add_right forward ahead) bounded
        apply (respects' _ _ next further related').mono
        intro _ _ answers'
        exact answers'.earlier forward
  | failed falls related' => exact .ok (.failed falls related')

theorem RespectsAhead.times (respects : RespectsAhead ahead stops R zone action action')
    (count : Nat) : RespectsAhead ahead stops R zone (action.times count) (action'.times count) := by
  induction count with
  | zero => exact respectsAhead_succeed
  | succ count ih => exact respects.andThen ih

theorem RespectsAhead.atLeast (respects : RespectsAhead ahead stops R zone action action')
    (respects' : RespectsAhead ahead stops R zone last last') (count : Nat) :
    RespectsAhead ahead stops R zone (action.atLeast last count) (action'.atLeast last' count) := by
  induction count with
  | zero => exact respects'
  | succ count ih => exact respects.thenIfMoved ih

section Lasting

variable (lasting : Context.LastingAhead ahead stops R)
include lasting

theorem RespectsAhead.attempt (respects : RespectsAhead ahead stops R zone action action') :
    RespectsAhead ahead stops R zone action.attempt action'.attempt := by
  intro ctx ctx' cursor holds related
  apply (respects ctx ctx' cursor holds related).bind
  intro _ _ answers
  cases answers with
  | matched forward bounded related' => exact .ok (.matched forward bounded related')
  | failed falls related' =>
      apply (lasting.rewind related related').bind
      intro _ _ related''
      exact .ok (.failed falls related'')

theorem RespectsAhead.probe (respects : RespectsAhead ahead stops R zone action action') :
    RespectsAhead ahead stops R zone action.probe action'.probe := by
  intro ctx ctx' cursor holds related
  apply (respects ctx ctx' cursor holds related).bind
  intro _ _ answers
  cases answers with
  | matched forward bounded related' =>
      apply (lasting.rewind related related').bind
      intro _ _ related''
      exact .ok (.matched forward bounded related'')
  | failed falls related' =>
      apply (lasting.rewind related related').bind
      intro _ _ related''
      exact .ok (.failed falls related'')

theorem RespectsAhead.sequenceOpt {actions actions' : List (Action τ)}
    (respects : List.Forall₂ (RespectsAhead ahead stops R zone) actions actions') :
    RespectsAhead ahead stops R zone (sequenceOpt actions) (sequenceOpt actions') := by
  induction respects with
  | nil => exact respectsAhead_succeed
  | cons here _ ih =>
      intro ctx ctx' cursor holds related
      apply (here.attempt lasting ctx ctx' cursor holds related).bind
      intro _ _ answers
      cases answers with
      | matched forward bounded related' =>
          have further := holds.later (Nat.add_le_add_right forward ahead) bounded
          apply (ih _ _ _ further related').mono
          intro _ _ answers'
          exact answers'.earlier forward
      | failed _ related' => exact .ok (.stays holds related')

theorem RespectsAhead.firstOf {actions actions' : List (Action τ)}
    (respects : List.Forall₂ (RespectsAhead ahead stops R zone) actions actions') :
    ∀ offset ctx ctx' cursor, zone.Holds (cursor + ahead) →
      zone.Fails (cursor + ahead) (offset + ahead) → R ctx ctx' →
      Concur stops (zone.AnswersAhead ahead R cursor)
        (firstOf (offset + ahead) actions ctx (cursor + ahead))
        (firstOf offset actions' ctx' cursor) := by
  induction respects with
  | nil =>
      intro offset ctx ctx' cursor _ falls related
      exact .ok (.failed falls related)
  | cons here _ ih =>
      intro offset ctx ctx' cursor holds falls related
      apply (here.attempt lasting ctx ctx' cursor holds related).bind
      intro _ _ answers
      cases answers with
      | matched forward bounded related' => exact .ok (.matched forward bounded related')
      | failed falls' related' =>
          have further := falls.max falls'
          simp only [Nat.add_max_add_right] at further ⊢
          exact ih _ _ _ cursor holds further related'

theorem RespectsAhead.choice {actions actions' : List (Action τ)}
    (respects : List.Forall₂ (RespectsAhead ahead stops R zone) actions actions') :
    RespectsAhead ahead stops R zone (choice actions) (choice actions') := by
  intro ctx ctx' cursor holds related
  exact RespectsAhead.firstOf lasting respects cursor ctx ctx' cursor holds holds.fails related

theorem RespectsAhead.nonEmpty (respects : RespectsAhead ahead stops R zone action action') :
    RespectsAhead ahead stops R zone action.nonEmpty action'.nonEmpty := by
  intro ctx ctx' cursor holds related
  apply (respects ctx ctx' cursor holds related).bind
  intro _ _ answers
  cases answers with
  | @matched next _ _ forward bounded related' =>
      simp only [Nat.add_right_cancel_iff]
      by_cases same : next = cursor
      · simp only [if_pos same]
        apply (lasting.rewind related related').bind
        intro _ _ related''
        exact .ok (.failed holds.fails related'')
      · simp only [if_neg same]
        exact .ok (.matched forward bounded related')
  | failed falls related' => exact .ok (.failed falls related')

theorem RespectsAhead.optional (respects : RespectsAhead ahead stops R zone action action') :
    RespectsAhead ahead stops R zone action.optional action'.optional := by
  intro ctx ctx' cursor holds related
  apply (respects.attempt lasting ctx ctx' cursor holds related).bind
  intro _ _ answers
  cases answers with
  | matched forward bounded related' => exact .ok (.matched forward bounded related')
  | failed _ related' => exact .ok (.stays holds related')

theorem RespectsAhead.lookAhead (respects : RespectsAhead ahead stops R zone action action') :
    RespectsAhead ahead stops R zone action.ahead action'.ahead := by
  intro ctx ctx' cursor holds related
  apply (respects.probe lasting ctx ctx' cursor holds related).bind
  intro _ _ answers
  cases answers with
  | matched _ _ related' => exact .ok (.stays holds related')
  | failed falls related' => exact .ok (.failed falls related')

theorem RespectsAhead.notAhead (respects : RespectsAhead ahead stops R zone action action') :
    RespectsAhead ahead stops R zone action.notAhead action'.notAhead := by
  intro ctx ctx' cursor holds related
  apply (respects.probe lasting ctx ctx' cursor holds related).bind
  intro _ _ answers
  cases answers with
  | matched _ _ related' => exact .ok (.failed holds.fails related')
  | failed _ related' => exact .ok (.stays holds related')

theorem RespectsAhead.building (respects : RespectsAhead ahead stops R zone action action')
    {change : Context τ → Option NodeId → Nat → Nat → Except Fault (Context τ)}
    (changes : ∀ {before before' ctx ctx' : Context τ} (start stop : Nat), R before before' →
      R ctx ctx' → Concur stops R (change ctx before.watermark (start + ahead) (stop + ahead))
        (change ctx' before'.watermark start stop)) :
    RespectsAhead ahead stops R zone (action.building change) (action'.building change) := by
  intro ctx ctx' cursor holds related
  apply (respects.attempt lasting ctx ctx' cursor holds related).bind
  intro _ _ answers
  cases answers with
  | matched forward bounded related' =>
      apply (changes _ _ related related').bind
      intro _ _ related''
      exact .ok (.matched forward bounded related'')
  | failed falls related' => exact .ok (.failed falls related')

theorem RespectsAhead.node (respects : RespectsAhead ahead stops R zone action action')
    (tag : Option τ) (bookmark : Bool) :
    RespectsAhead ahead stops R zone (action.node tag bookmark) (action'.node tag bookmark) := by
  apply respects.building lasting
  intro before before' ctx ctx' start stop related related'
  exact lasting.close tag start stop bookmark related related'

theorem RespectsAhead.promote (respects : RespectsAhead ahead stops R zone action action') :
    RespectsAhead ahead stops R zone action.promote action'.promote := by
  apply respects.building lasting
  intro before before' ctx ctx' start stop related related'
  exact lasting.promote start stop related related'

/-! ## Loops -/

theorem respectsAhead_greedy (respects : RespectsAhead ahead stops R zone action action')
    (rounds : Nat) :
    ∀ ctx ctx' cursor, zone.Holds (cursor + ahead) → R ctx ctx' →
      (∀ ctx ctx' place, zone.Holds (place + ahead) → cursor + rounds ≤ place → R ctx ctx' →
        Concur stops (zone.AnswersAhead ahead R place) (last ctx (place + ahead))
          (last' ctx' place)) →
      Concur stops (zone.AnswersAhead ahead R cursor)
        (action.greedy last rounds ctx (cursor + ahead)) (action'.greedy last' rounds ctx' cursor) := by
  induction rounds with
  | zero =>
      intro ctx ctx' cursor holds related atEnd
      exact atEnd ctx ctx' cursor holds (Nat.le_refl cursor) related
  | succ rounds ih =>
      intro ctx ctx' cursor holds related atEnd
      apply (respects.attempt lasting ctx ctx' cursor holds related).bind
      intro _ _ answers
      cases answers with
      | @matched next _ _ forward bounded related' =>
          simp only [Nat.add_right_cancel_iff]
          by_cases same : next = cursor
          · simp only [if_pos same]
            exact .ok (.matched forward bounded related')
          · simp only [if_neg same]
            have further := holds.later (Nat.add_le_add_right forward ahead) bounded
            apply (ih _ _ next further related' ?_).mono
            · intro _ _ answers'
              exact answers'.earlier forward
            · intro ctx ctx' place holds' far related''
              exact atEnd ctx ctx' place holds' (by omega) related''
      | failed _ related' => exact .ok (.stays holds related')

theorem RespectsAhead.greedy (respects : RespectsAhead ahead stops R zone action action')
    (respects' : RespectsAhead ahead stops R zone last last') (rounds : Nat) :
    RespectsAhead ahead stops R zone (action.greedy last rounds) (action'.greedy last' rounds) := by
  intro ctx ctx' cursor holds related
  apply respectsAhead_greedy lasting respects rounds ctx ctx' cursor holds related
  intro ctx ctx' place holds' _ related'
  exact respects' ctx ctx' place holds' related'

/-- As many rounds as there are places left, and one more, are never used up. -/
theorem RespectsAhead.repeated (respects : RespectsAhead ahead stops R zone action action')
    {β : Type} {window : Window β} (limits : zone.limit = window.limit + ahead) :
    RespectsAhead ahead stops R zone
      (fun ctx cursor => action.greedy last (zone.left cursor + 1) ctx cursor)
      (fun ctx cursor => action'.greedy last' (window.left cursor + 1) ctx cursor) := by
  intro ctx ctx' cursor holds related
  dsimp only
  rw [← Zone.left_eq limits]
  apply respectsAhead_greedy lasting respects _ ctx ctx' cursor holds related
  intro ctx ctx' place holds' far _
  have within := holds'.2
  rw [Window.left] at far
  omega

theorem respectsAhead_upTo (respects : RespectsAhead ahead stops R zone action action')
    (left : Nat) :
    ∀ ctx ctx' cursor, zone.Holds (cursor + ahead) → cursor + ahead + left ≤ zone.limit →
      R ctx ctx' →
      Concur stops (zone.AnswersAhead ahead R cursor) (action.upTo left ctx (cursor + ahead))
        (action'.upTo left ctx' cursor) := by
  induction left with
  | zero =>
      intro ctx ctx' cursor holds _ related
      apply (respects.probe lasting ctx ctx' cursor holds related).bind
      intro _ _ answers
      cases answers with
      | matched _ _ related' => exact .ok (.stays holds related')
      | failed _ related' => exact .ok (.failed holds.fails related')
  | succ left ih =>
      intro ctx ctx' cursor holds within related
      apply (respects.probe lasting ctx ctx' cursor holds related).bind
      intro _ _ answers
      cases answers with
      | matched _ _ related' => exact .ok (.stays holds related')
      | failed _ related' =>
          have next : cursor + ahead + 1 = cursor + 1 + ahead := Nat.add_right_comm cursor ahead 1
          have further : zone.Holds (cursor + 1 + ahead) :=
            holds.later (by omega) (by omega)
          dsimp only
          rw [next]
          apply (ih _ _ (cursor + 1) further (by omega) related').mono
          intro _ _ answers'
          exact answers'.earlier (Nat.le_succ cursor)

theorem RespectsAhead.upTo (respects : RespectsAhead ahead stops R zone action action') {β : Type}
    {window : Window β} (limits : zone.limit = window.limit + ahead) :
    RespectsAhead ahead stops R zone
      (fun ctx cursor => action.upTo (zone.left cursor) ctx cursor)
      (fun ctx cursor => action'.upTo (window.left cursor) ctx cursor) := by
  intro ctx ctx' cursor holds related
  dsimp only
  rw [← Zone.left_eq limits]
  exact respectsAhead_upTo lasting respects _ ctx ctx' cursor holds
    (Nat.le_of_eq (Nat.add_sub_of_le holds.2)) related

theorem RespectsAhead.closeOr (respects : RespectsAhead ahead stops R zone closing closing')
    (respects' : RespectsAhead ahead stops R zone item item') {start cursor : Nat}
    {ctx ctx' : Context τ} (holds : zone.Holds (cursor + ahead)) (begun : start ≤ cursor)
    (related : R ctx ctx')
    (after : ∀ ctx ctx' next, cursor ≤ next → zone.Holds (next + ahead) → R ctx ctx' →
      Concur stops (zone.AnswersAhead ahead R start) (second ctx (next + ahead))
        (second' ctx' next)) :
    Concur stops (zone.AnswersAhead ahead R start)
      (closing.closeOr item second ctx (cursor + ahead))
      (closing'.closeOr item' second' ctx' cursor) := by
  apply (respects.attempt lasting ctx ctx' cursor holds related).bind
  intro _ _ answers
  cases answers with
  | matched forward bounded related' =>
      exact .ok (.matched (Nat.le_trans begun forward) bounded related')
  | failed falls related' =>
      apply (respects' _ _ cursor holds related').bind
      intro _ _ answers'
      cases answers' with
      | matched forward bounded related'' =>
          have further := holds.later (Nat.add_le_add_right forward ahead) bounded
          exact after _ _ _ forward further related''
      | failed falls' related'' =>
          have further := (falls.max falls').earlier (Nat.add_le_add_right begun ahead)
          simp only [Nat.add_max_add_right] at further ⊢
          exact .ok (.failed further related'')

theorem respectsAhead_blockRounds (respects : RespectsAhead ahead stops R zone item item')
    (respects' : RespectsAhead ahead stops R zone closing closing') (rounds : Nat) :
    ∀ ctx ctx' cursor, zone.Holds (cursor + ahead) → zone.left (cursor + ahead) < rounds →
      R ctx ctx' →
      Concur stops (zone.AnswersAhead ahead R cursor)
        (item.blockRounds closing rounds ctx (cursor + ahead))
        (item'.blockRounds closing' rounds ctx' cursor) := by
  induction rounds with
  | zero =>
      intro ctx ctx' cursor _ enough _
      exact absurd enough (Nat.not_lt_zero _)
  | succ rounds ih =>
      intro ctx ctx' cursor holds enough related
      rw [Window.left] at enough
      apply respects'.closeOr lasting respects holds (Nat.le_refl cursor) related
      intro ctx ctx' next forward holds' related'
      simp only [Nat.add_right_cancel_iff]
      by_cases same : next = cursor
      · simp only [if_pos same]
        exact .ok (.failed holds.fails related')
      · simp only [if_neg same]
        have within := holds'.2
        have fewer : zone.left (next + ahead) < rounds := by
          rw [Window.left]
          omega
        apply (ih ctx ctx' next holds' fewer related').mono
        intro _ _ answers
        exact answers.earlier forward

theorem RespectsAhead.block (respects : RespectsAhead ahead stops R zone item item')
    (respects' : RespectsAhead ahead stops R zone closing closing') {β : Type} {window : Window β}
    (limits : zone.limit = window.limit + ahead) :
    RespectsAhead ahead stops R zone
      (fun ctx cursor => item.blockRounds closing (zone.left cursor + 1) ctx cursor)
      (fun ctx cursor => item'.blockRounds closing' (window.left cursor + 1) ctx cursor) := by
  intro ctx ctx' cursor holds related
  dsimp only
  rw [← Zone.left_eq limits]
  exact respectsAhead_blockRounds lasting respects respects' _ ctx ctx' cursor holds
    (Nat.lt_succ_self _) related

theorem respectsAhead_listRounds (respects : RespectsAhead ahead stops R zone item item')
    (respects' : RespectsAhead ahead stops R zone separator separator')
    (respects'' : RespectsAhead ahead stops R zone closing closing') (rounds : Nat) :
    ∀ ctx ctx' cursor, zone.Holds (cursor + ahead) → zone.left (cursor + ahead) < rounds →
      R ctx ctx' →
      Concur stops (zone.AnswersAhead ahead R cursor)
        (item.listRounds separator closing rounds ctx (cursor + ahead))
        (item'.listRounds separator' closing' rounds ctx' cursor) := by
  induction rounds with
  | zero =>
      intro ctx ctx' cursor _ enough _
      exact absurd enough (Nat.not_lt_zero _)
  | succ rounds ih =>
      intro ctx ctx' cursor holds enough related
      rw [Window.left] at enough
      apply respects''.closeOr lasting respects holds (Nat.le_refl cursor) related
      intro ctx ctx' afterItem forward holds' related'
      apply respects''.closeOr lasting respects' holds' forward related'
      intro ctx ctx' next forward' holds'' related''
      simp only [Nat.add_right_cancel_iff]
      by_cases same : next = cursor
      · simp only [if_pos same]
        exact .ok (.failed (holds'.fails.earlier (Nat.add_le_add_right forward ahead)) related'')
      · simp only [if_neg same]
        have within := holds''.2
        have fewer : zone.left (next + ahead) < rounds := by
          rw [Window.left]
          omega
        apply (ih ctx ctx' next holds'' fewer related'').mono
        intro _ _ answers
        exact answers.earlier (Nat.le_trans forward forward')

theorem RespectsAhead.list (respects : RespectsAhead ahead stops R zone item item')
    (respects' : RespectsAhead ahead stops R zone separator separator')
    (respects'' : RespectsAhead ahead stops R zone closing closing') {β : Type}
    {window : Window β} (limits : zone.limit = window.limit + ahead) :
    RespectsAhead ahead stops R zone
      (fun ctx cursor => item.listRounds separator closing (zone.left cursor + 1) ctx cursor)
      (fun ctx cursor =>
        item'.listRounds separator' closing' (window.left cursor + 1) ctx cursor) := by
  intro ctx ctx' cursor holds related
  dsimp only
  rw [← Zone.left_eq limits]
  exact respectsAhead_listRounds lasting respects respects' respects'' _ ctx ctx' cursor holds
    (Nat.lt_succ_self _) related

end Lasting

/-! ## Atoms -/

section Atoms

variable {β : Type} {key : α → β} {window : Window β}
  (views : zone.Views ahead stops key window)
include views

theorem respectsAhead_one {test : α → Except Fault Bool} {test' : β → Except Fault Bool}
    (tests : ∀ a, Concur stops Eq (test a) (test' (key a))) :
    RespectsAhead ahead stops R zone (one zone.toWindow test) (one window test') := by
  intro ctx ctx' cursor holds related
  unfold one
  rw [views.peek? cursor holds.1]
  cases found : zone.peek? (cursor + ahead) with
  | none => exact .ok (.failed holds.fails related)
  | some a =>
      apply (tests a).bind
      rintro passed _ rfl
      cases passed with
      | false => exact .ok (.failed holds.fails related)
      | true =>
          have below := Reading.lt_limit_of_peek found
          simp only [if_true, Nat.add_right_comm cursor ahead 1]
          exact .ok (.matched (Nat.le_succ cursor) (by omega) related)

theorem respectsAhead_literal {order : Comparator α} {order' : Comparator β}
    (compares : ∀ a b, order' (key a) (key b) = order a b) (atoms : List α) :
    RespectsAhead ahead stops R zone (literal order zone.toWindow atoms)
      (literal order' window (atoms.map key)) := by
  induction atoms with
  | nil => exact respectsAhead_succeed
  | cons expected rest ih =>
      intro ctx ctx' cursor holds related
      rw [List.map_cons]
      unfold literal
      rw [views.peek? cursor holds.1]
      cases found : zone.peek? (cursor + ahead) with
      | none => exact .ok (.failed holds.fails related)
      | some a =>
          have alike : order'.same (key a) (key expected) = order.same a expected := by
            rw [Comparator.same, Comparator.same, compares]
          simp only [Option.map_some, alike]
          by_cases same : order.same a expected = true
          · have below := Reading.lt_limit_of_peek found
            have further : zone.Holds (cursor + 1 + ahead) := holds.later (by omega) (by omega)
            simp only [if_pos same, Nat.add_right_comm cursor ahead 1]
            apply (ih ctx ctx' (cursor + 1) further related).mono
            intro _ _ answers
            exact answers.earlier (Nat.le_succ cursor)
          · simp only [if_neg same]
            exact .ok (.failed holds.fails related)

theorem respectsAhead_endOfInput :
    RespectsAhead ahead stops R zone (endOfInput zone.toWindow) (endOfInput window) := by
  intro ctx ctx' cursor holds related
  unfold endOfInput
  simp only [views.limit, Nat.add_right_cancel_iff]
  by_cases atEnd : cursor = window.limit
  · rw [if_pos atEnd, if_pos atEnd]
    exact .ok (.stays holds related)
  · rw [if_neg atEnd, if_neg atEnd]
    exact .ok (.failed holds.fails related)

theorem respectsAhead_backref (shares : Context.SharesAhead ahead stops R zone key window)
    {order : Comparator α} {order' : Comparator β}
    (compares : ∀ a b, order' (key a) (key b) = order a b) (name : String) :
    RespectsAhead ahead stops R zone (backref order zone.toWindow name)
      (backref order' window name) := by
  intro ctx ctx' cursor holds related
  unfold backref
  rw [← bind_assoc, ← bind_assoc]
  apply (shares.stored name related).bind
  rintro atoms _ rfl
  rw [Array.toList_map]
  exact respectsAhead_literal views compares atoms.toList ctx ctx' cursor holds related

theorem respectsAhead_skip (count : Nat) :
    RespectsAhead ahead stops R zone (skip zone.toWindow count) (skip window count) := by
  intro ctx ctx' cursor holds related
  have fits := Zone.left_eq views.limit cursor
  unfold skip
  rw [fits]
  by_cases enough : count ≤ window.left cursor
  · rw [if_pos enough, if_pos enough, Nat.add_right_comm]
    have bounded : cursor + count + ahead ≤ zone.limit := by
      have within := holds.2
      rw [← fits, Window.left] at enough
      omega
    exact .ok (.matched (Nat.le_add_right cursor count) bounded related)
  · rw [if_neg enough, if_neg enough]
    exact .error (views.advance count cursor)

theorem respectsAhead_failAt (misused : ∀ {fault : Fault}, fault.IsMisuse → stops fault fault)
    (loose : ¬zone.strict) (offset : Nat) :
    RespectsAhead ahead stops R zone (failAt zone.toWindow offset) (failAt window offset) := by
  intro ctx ctx' cursor holds related
  obtain ⟨rfl, sizes⟩ := views.named loose
  unfold failAt
  rw [sizes]
  by_cases inside : offset ≤ zone.source.size
  · rw [if_pos inside, if_pos inside]
    exact .ok (.failed ⟨inside, fun strict => absurd strict loose⟩ related)
  · rw [if_neg inside, if_neg inside]
    exact .error (misused nofun)

end Atoms

end Action

theorem AtomClass.test_map {α β : Type} [Atom α] [Atom β] {stops : Fault → Fault → Prop}
    {order : Comparator α} {key : α → β} {order' : Comparator β}
    (keyed : order.Keyed stops key order') (kind : AtomClass α) (a : α) :
    Concur stops Eq (kind.test order a) ((kind.map key).test order' (key a)) := by
  have same : ∀ b, order'.same (key a) (key b) = order.same a b := by
    intro b
    rw [Comparator.same, Comparator.same, keyed.compares]
  induction kind with
  | any => exact .ok rfl
  | exactly b => exact .ok (same b).symm
  | among set =>
      apply Concur.ok
      rw [List.any_map]
      exact List.any_congr rfl fun b => (same b).symm
  | within low high =>
      unfold test map
      simp only [keyed.compares]
      split
      · exact .error (keyed.emptyRange low high)
      · apply Concur.ok
        rw [Comparator.between, Comparator.between, keyed.compares, keyed.compares]
  | except inner ih =>
      apply ih.bind
      rintro inside _ rfl
      exact .ok rfl

/-! ## Matchers -/

variable {α β τ ρ : Type}

/-- What a matcher asks for, apart from what its parts ask for: `shares` where it uses the stored
ranges, a zone that is not strict where it names an offset, and `calls` of the rules that it calls. -/
def Matcher.Asks (shares strict : Prop) (calls : ρ → Prop) : Matcher α τ ρ → Prop
  | .store _ _ | .backref _ => shares
  | .failAt _ => ¬strict
  | .rule name => calls name
  | _ => True

theorem Matcher.Asks.of_calls {shares strict : Prop} {calls calls' : ρ → Prop}
    {matcher : Matcher α τ ρ} (asks : matcher.Asks shares strict calls)
    (called : ∀ name, matcher = .rule name → calls' name) : matcher.Asks shares strict calls' := by
  cases matcher with
  | rule name => exact called name rfl
  | _ => exact asks

theorem Matcher.Asks.imp {shares shares' strict : Prop} {calls calls' : ρ → Prop}
    {matcher : Matcher α τ ρ} (asks : matcher.Asks shares strict calls)
    (stored : shares → shares') (called : ∀ name, calls name → calls' name) :
    matcher.Asks shares' strict calls' := by
  cases matcher with
  | store _ _ => exact stored asks
  | backref _ => exact stored asks
  | rule name => exact called name asks
  | _ => exact asks

def Matcher.isFailAt : Matcher α τ ρ → Bool
  | .failAt _ => true
  | _ => false

theorem Matcher.asks_of_shares {shares strict : Prop} {calls : ρ → Prop} {matcher : Matcher α τ ρ}
    (shared : shares) (loose : matcher.isFailAt = true → ¬strict)
    (called : ∀ name, matcher = .rule name → calls name) : matcher.Asks shares strict calls := by
  cases matcher with
  | store _ _ => exact shared
  | backref _ => exact shared
  | failAt _ => exact loose rfl
  | rule name => exact called name rfl
  | _ => trivial

variable [Atom α] [Atom β] {order : Comparator α} {order' : Comparator β} {key : α → β}
  {zone : Zone α} {window : Window β} {gap : Nat} {stops : Fault → Fault → Prop}
  {R : Context τ → Context τ → Prop}

mutual

/-- A matcher sees atoms only through the comparator, and places only through how far they are
apart: it may as well see the keys of the atoms, and begin its count at another place. -/
theorem Matcher.eval_respectsAhead (lasting : Context.LastingAhead gap stops R)
    (keyed : order.Keyed stops key order') (views : zone.Views gap stops key window)
    {call call' : ρ → Action τ} :
    ∀ matcher : Matcher α τ ρ,
      matcher.Every (Asks (Context.SharesAhead gap stops R zone key window) zone.strict fun name =>
        (call name).RespectsAhead gap stops R zone (call' name)) →
      (matcher.eval order zone.toWindow call).RespectsAhead gap stops R zone
        ((matcher.mapAtoms key).eval order' window call')
  | .one kind, _ => Action.respectsAhead_one views fun a => kind.test_map keyed a
  | .literal atoms, _ => Action.respectsAhead_literal views keyed.compares atoms
  | .endOfInput, _ => Action.respectsAhead_endOfInput views
  | .seq steps, every => .sequence (evalAll_respectsAhead lasting keyed views steps every.parts)
  | .seqOpt steps, every =>
      .sequenceOpt lasting (evalAll_respectsAhead lasting keyed views steps every.parts)
  | .choice alternatives, every =>
      .choice lasting (evalAll_respectsAhead lasting keyed views alternatives every.parts)
  | .nonEmpty inner, every =>
      (eval_respectsAhead lasting keyed views inner (every.inner rfl)).nonEmpty lasting
  | .star inner, every =>
      (eval_respectsAhead lasting keyed views inner (every.inner rfl)).repeated lasting views.limit
  | .plus inner, every =>
      (eval_respectsAhead lasting keyed views inner (every.inner rfl)).thenIfMoved
        ((eval_respectsAhead lasting keyed views inner (every.inner rfl)).repeated lasting
          views.limit)
  | .opt inner, every =>
      (eval_respectsAhead lasting keyed views inner (every.inner rfl)).optional lasting
  | .times count inner, every =>
      (eval_respectsAhead lasting keyed views inner (every.inner rfl)).times count
  | .timesBetween least most inner, every =>
      (eval_respectsAhead lasting keyed views inner (every.inner rfl)).atLeast
        ((eval_respectsAhead lasting keyed views inner (every.inner rfl)).greedy lasting
          Action.respectsAhead_succeed (most - least)) least
  | .ahead inner, every =>
      (eval_respectsAhead lasting keyed views inner (every.inner rfl)).lookAhead lasting
  | .notAhead inner, every =>
      (eval_respectsAhead lasting keyed views inner (every.inner rfl)).notAhead lasting
  | .upTo inner, every =>
      (eval_respectsAhead lasting keyed views inner (every.inner rfl)).upTo lasting views.limit
  | .block opening item closing, every =>
      (eval_respectsAhead lasting keyed views opening (every.parts _ (by simp [parts]))).andThen
        ((eval_respectsAhead lasting keyed views item (every.parts _ (by simp [parts]))).block
          lasting (eval_respectsAhead lasting keyed views closing (every.parts _ (by simp [parts])))
          views.limit)
  | .list opening item separator closing, every =>
      (eval_respectsAhead lasting keyed views opening (every.parts _ (by simp [parts]))).andThen
        ((eval_respectsAhead lasting keyed views item (every.parts _ (by simp [parts]))).list
          lasting
          (eval_respectsAhead lasting keyed views separator (every.parts _ (by simp [parts])))
          (eval_respectsAhead lasting keyed views closing (every.parts _ (by simp [parts])))
          views.limit)
  | .store name inner, every =>
      (eval_respectsAhead lasting keyed views inner (every.inner rfl)).store every.here name
  | .backref name, every =>
      Action.respectsAhead_backref views every.here keyed.compares name
  | .node tag bookmark inner, every =>
      (eval_respectsAhead lasting keyed views inner (every.inner rfl)).node lasting tag bookmark
  | .promote inner, every =>
      (eval_respectsAhead lasting keyed views inner (every.inner rfl)).promote lasting
  | .rule _, every => every.here
  | .skip count, _ => Action.respectsAhead_skip views count
  | .failAt offset, every => Action.respectsAhead_failAt views lasting.misused every.here offset

theorem Matcher.evalAll_respectsAhead (lasting : Context.LastingAhead gap stops R)
    (keyed : order.Keyed stops key order') (views : zone.Views gap stops key window)
    {call call' : ρ → Action τ} :
    ∀ matchers : List (Matcher α τ ρ),
      (∀ matcher ∈ matchers, matcher.Every (Asks (Context.SharesAhead gap stops R zone key window)
        zone.strict fun name => (call name).RespectsAhead gap stops R zone (call' name))) →
      List.Forall₂ (Action.RespectsAhead gap stops R zone)
        (evalAll order zone.toWindow call matchers)
        (evalAll order' window call' (mapAtomsAll key matchers))
  | [], _ => .nil
  | matcher :: rest, every =>
      .cons (eval_respectsAhead lasting keyed views matcher (every matcher List.mem_cons_self))
        (evalAll_respectsAhead lasting keyed views rest fun other member =>
          every other (List.mem_cons_of_mem matcher member))

end

theorem Grammar.run_respectsAhead (lasting : Context.LastingAhead gap stops R)
    (keyed : order.Keyed stops key order') (views : zone.Views gap stops key window)
    (bound : stops .exhausted .exhausted) {grammar : Grammar α τ ρ} (depth : Nat) :
    ∀ matcher : Matcher α τ ρ,
      (∀ inner, grammar.Uses matcher inner →
        inner.Asks (Context.SharesAhead gap stops R zone key window) zone.strict fun _ => True) →
      (grammar.run order depth zone.toWindow matcher).RespectsAhead gap stops R zone
        ((grammar.mapAtoms key).run order' depth window (matcher.mapAtoms key)) := by
  -- A rule is looked up one level down, so the induction is on the depth and goes over all matchers.
  induction depth with
  | zero =>
      intro matcher uses
      apply Matcher.eval_respectsAhead lasting keyed views matcher
      intro part partOf
      apply (uses part (.of_partOf partOf (.self part))).of_calls
      intro name _
      exact Action.respectsAhead_stop bound
  | succ depth ih =>
      intro matcher uses
      apply Matcher.eval_respectsAhead lasting keyed views matcher
      intro part partOf
      apply (uses part (.of_partOf partOf (.self part))).of_calls
      rintro name rfl
      apply ih (grammar name)
      intro inner deeper
      exact uses inner (.of_partOf partOf (.rule deeper))

end PegForest
