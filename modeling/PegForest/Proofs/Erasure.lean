import PegForest.Proofs.Action.Respect
import PegForest.Proofs.Reading.Erase
import PegForest.Proofs.Session

/-!
# Building does not influence recognition

A match on a tree context goes as the match without its nodes goes on a text context: both follow
one reading, apart from the trees.  The two runs do not keep the same store all the way.  A node
rewinds when what stands in it fails, and without the node the store is cleaned up only by whoever
goes on after the failure; but nobody looks at the store before that.

A matcher that has nothing to do with the store does not even need one: without a forest and without
a store there is nothing to rewind.
-/

set_option autoImplicit false

namespace PegForest

variable {α τ ρ : Type}

/-! ## What an erased matcher uses -/

namespace Matcher

def usesRefs : Matcher α τ ρ → Bool
  | .store _ _ | .backref _ => true
  | _ => false

def isBuilding : Matcher α τ ρ → Bool
  | .node _ _ _ | .promote _ => true
  | _ => false

def core : Matcher α τ ρ → Matcher α τ ρ
  | .node _ _ inner | .promote inner => inner.core
  | matcher => matcher

theorem isBuilding_core (matcher : Matcher α τ ρ) : matcher.core.isBuilding = false := by
  fun_induction core matcher with
  | case1 _ _ inner ih => exact ih
  | case2 inner ih => exact ih
  | case3 matcher noNode noPromote =>
      cases matcher with
      | node tag bookmark inner => exact absurd rfl (noNode tag bookmark inner)
      | promote inner => exact absurd rfl (noPromote inner)
      | _ => rfl

theorem core_partOf (matcher : Matcher α τ ρ) : matcher.core.PartOf matcher := by
  fun_induction core matcher with
  | case1 _ _ inner ih => exact .deep (List.mem_singleton_self inner) ih
  | case2 inner ih => exact .deep (List.mem_singleton_self inner) ih
  | case3 matcher _ _ => exact .self matcher

theorem erase_core (matcher : Matcher α τ ρ) : matcher.core.erase = matcher.erase := by
  fun_induction core matcher with
  | case1 _ _ inner ih => exact ih
  | case2 inner ih => exact ih
  | case3 matcher _ _ => rfl

theorem eraseAll_eq_map (matchers : List (Matcher α τ ρ)) : eraseAll matchers = matchers.map erase := by
  induction matchers with
  | nil => rfl
  | cons matcher rest ih => rw [eraseAll, ih, List.map_cons]

theorem parts_erase {matcher : Matcher α τ ρ} (plain : matcher.isBuilding = false) :
    matcher.erase.parts = matcher.parts.map erase := by
  cases matcher with
  | node _ _ _ => cases plain
  | promote _ => cases plain
  | seq steps => exact eraseAll_eq_map steps
  | seqOpt steps => exact eraseAll_eq_map steps
  | choice alternatives => exact eraseAll_eq_map alternatives
  | _ => rfl

theorem usesRefs_erase {matcher : Matcher α τ ρ} (plain : matcher.isBuilding = false) :
    matcher.erase.usesRefs = matcher.usesRefs := by
  cases matcher with
  | node _ _ _ => cases plain
  | promote _ => cases plain
  | _ => rfl

theorem eq_rule_of_erase {matcher : Matcher α τ ρ} {name : ρ} (plain : matcher.isBuilding = false)
    (erased : matcher.erase = .rule name) : matcher = .rule name := by
  cases matcher with
  | rule _ => exact erased
  | node _ _ _ => cases plain
  | promote _ => cases plain
  | _ => cases erased

end Matcher

open Matcher in
theorem Grammar.Uses.of_erase {grammar : Grammar α τ ρ} {whole inner : Matcher α τ ρ}
    (uses : grammar.erase.Uses whole inner) :
    ∀ matcher : Matcher α τ ρ, matcher.erase = whole →
      ∃ origin, grammar.Uses matcher origin ∧ origin.isBuilding = false ∧ origin.erase = inner := by
  induction uses with
  | self whole =>
      intro matcher erased
      exact ⟨matcher.core, .of_partOf matcher.core_partOf (.self _), matcher.isBuilding_core,
        matcher.erase_core.trans erased⟩
  | @part whole part inner member _ ih =>
      rintro matcher rfl
      rw [← matcher.erase_core, parts_erase matcher.isBuilding_core] at member
      obtain ⟨origin, member', erased⟩ := List.mem_map.mp member
      obtain ⟨found, used, plain, same⟩ := ih origin erased
      exact ⟨found, .of_partOf matcher.core_partOf (.part member' used), plain, same⟩
  | @rule name inner _ ih =>
      intro matcher erased
      have called : matcher.core = .rule name :=
        eq_rule_of_erase matcher.isBuilding_core (matcher.erase_core.trans erased)
      obtain ⟨found, used, plain, same⟩ := ih (grammar name) rfl
      have used' : grammar.Uses matcher.core found := by
        rw [called]
        exact .rule used
      exact ⟨found, .of_partOf matcher.core_partOf used', plain, same⟩

theorem Grammar.usesRefs_of_erase {grammar : Grammar α τ ρ} {matcher : Matcher α τ ρ}
    (free : ∀ inner, grammar.Uses matcher inner → inner.usesRefs = false) :
    ∀ inner, grammar.erase.Uses matcher.erase inner → inner.usesRefs = false := by
  intro inner uses
  obtain ⟨origin, used, plain, rfl⟩ := uses.of_erase matcher rfl
  exact (Matcher.usesRefs_erase plain).trans (free origin used)

/-! ## Matches -/

namespace Session

def Task.erase (task : Task α τ) : Task α τ :=
  { task with grammar := task.grammar.erase, matcher := task.matcher.erase }

def Match.erase (attempt : Match α τ) : Match α τ :=
  { attempt with toTask := attempt.toTask.erase }

def SameVerdict (answer answer' : Verdict × Context τ) : Prop :=
  answer.1 = answer'.1 ∧ ∀ next, answer.1 = .matched next → answer.2.refs = answer'.2.refs

def SameAnswer (answer answer' : Span α × Context τ) : Prop :=
  answer.1 = answer'.1 ∧ (answer.1.isValid = true → answer.2.refs = answer'.2.refs)

variable [Atom α] {ctx ctx' : Context τ} {refs : List Backref} {trees trees' : List (MarkedTree τ)}

theorem Task.erase_reads_alike (task : Task α τ) {window : Window α} {cursor : Nat}
    (within : cursor ≤ window.limit) (refs : List Backref) :
    Agree ((Likeness.recognition Eq).Outcomes window.limit cursor) (task.reading window refs cursor)
      (task.erase.reading window refs cursor) := by
  have alike : Reading.Alike (.recognition Eq) window.limit (task.reading window)
      (task.erase.reading window) := by
    apply Grammar.erase_alike rfl task.depth task.matcher
    intro inner _
    cases inner <;> simp [Matcher.Stops]
  exact (alike refs refs cursor within rfl).agree

theorem Task.erase_agrees (task : Task α τ) {window : Window α} {cursor : Nat}
    (within : cursor ≤ window.limit) (tracks : ctx.Tracks refs trees true)
    (tracks' : ctx'.Tracks refs trees' false) :
    Agree SameVerdict (task.action window ctx cursor) (task.erase.action window ctx' cursor) := by
  have followed : Agree (fun answer outcome' => ∃ outcome, Tells true refs trees answer outcome ∧
      (Likeness.recognition Eq).Outcomes window.limit cursor outcome outcome')
      (task.action window ctx cursor) (task.erase.reading window refs cursor) := by
    apply (task.realizes window true ctx refs trees cursor tracks).trans
      (task.erase_reads_alike within refs)
    intro answer outcome outcome' tells related
    exact ⟨outcome, tells, related⟩
  apply followed.trans (task.erase.realizes window false ctx' refs trees' cursor tracks').symm
  rintro answer outcome' answer' ⟨outcome, tells, related⟩ tells'
  cases related with
  | matched _ _ _ kept =>
      cases tells with
      | matched tracks =>
          cases tells' with
          | matched tracks' =>
              refine ⟨rfl, ?_⟩
              intro _ _
              rw [tracks.refs_eq, tracks'.refs_eq, kept]
  | failed offset =>
      cases tells with
      | failed _ =>
          cases tells' with
          | failed _ => exact ⟨rfl, by simp⟩

/-- On contexts that build nothing, a matcher that has nothing to do with the store does not see
whether there is one. -/
theorem Task.flat_agrees {task : Task α τ} {source : Array α} {cursor limit : Nat}
    (inside : cursor ≤ limit ∧ limit ≤ source.size)
    (free : ∀ inner, task.grammar.Uses task.matcher inner → inner.usesRefs = false)
    (flat : ctx.Flat ctx') :
    Agree (fun answer answer' => answer.1 = answer'.1) (task.action ⟨source, limit⟩ ctx cursor)
      (task.action ⟨source, limit⟩ ctx' cursor) := by
  let zone : Zone α := ⟨⟨source, limit⟩, cursor, False, inside.2⟩
  have respects : Action.Respects Eq Context.Flat zone (task.action ⟨source, limit⟩)
      (task.action ⟨source, limit⟩) := by
    apply Grammar.run_respects_same Context.lasting_flat rfl task.depth task.matcher
    intro inner uses
    have none := free inner uses
    cases inner <;> simp_all [Matcher.Asks, Matcher.usesRefs, zone]
  apply (respects ctx ctx' cursor ⟨Nat.le_refl cursor, inside.1⟩ flat).agree.mono
  intro answer answer' answers
  cases answers <;> rfl

theorem Match.agree_run (attempt : Match α τ) (other : Task α τ)
    {P : Verdict × Context τ → Verdict × Context τ → Prop}
    {Q : Span α × Context τ → Span α × Context τ → Prop}
    (act : attempt.cursor ≤ attempt.limit ∧ attempt.limit ≤ attempt.source.size →
      Agree P (attempt.action ⟨attempt.source, attempt.limit⟩ ctx attempt.cursor)
        (other.action ⟨attempt.source, attempt.limit⟩ ctx' attempt.cursor))
    (onSpans : ∀ verdict verdict' after after', P (verdict, after) (verdict', after') →
      Q (verdict.toSpan attempt.source attempt.limit, after)
        (verdict'.toSpan attempt.source attempt.limit, after')) :
    Agree Q (attempt.run ctx) ({ attempt with toTask := other : Match α τ }.run ctx') := by
  by_cases inside : attempt.cursor ≤ attempt.limit ∧ attempt.limit ≤ attempt.source.size
  · rw [attempt.run_of_inside inside, Match.run_of_inside { attempt with toTask := other } inside]
    apply (act inside).bind
    rintro ⟨verdict, after⟩ ⟨verdict', after'⟩ - related
    exact .ok (onSpans verdict verdict' after after' related)
  · rw [attempt.run_of_outside inside, Match.run_of_outside { attempt with toTask := other } inside]
    exact .error _

omit [Atom α] in
theorem SameVerdict.toSpan {verdict verdict' : Verdict} (same : SameVerdict (verdict, ctx) (verdict', ctx'))
    (source : Array α) (limit : Nat) :
    SameAnswer (verdict.toSpan source limit, ctx) (verdict'.toSpan source limit, ctx') := by
  obtain ⟨rfl, kept⟩ := same
  refine ⟨rfl, ?_⟩
  intro valid
  cases verdict with
  | matched next => exact kept next rfl
  | failed offset => cases valid

/-- A match on the tree context of a session, with any store put into it, goes as the erased match
on a text context with the same store, and, if it has nothing to do with the store, as the erased
match on a context that keeps nothing. -/
theorem erased_match_agrees {capacity : Nat} {start ctx : Context τ} {steps : List (Step α τ)}
    (opened : Context.tree capacity = .ok start) (reached : run steps start = .ok ctx)
    (refs : Backrefs) (log : Array Event) (attempt : Match α τ) :
    Agree SameAnswer (attempt.run { ctx with refs := some refs })
        (attempt.erase.run ⟨some refs, none, log⟩) ∧
      ((∀ inner, attempt.grammar.Uses attempt.matcher inner → inner.usesRefs = false) →
        Agree (fun answer answer' => answer.1 = answer'.1)
          (attempt.run { ctx with refs := some refs }) (attempt.erase.run ⟨none, none, log⟩)) := by
  have fresh : Fresh true start := .tree capacity opened
  obtain ⟨refs₀, trees, tracks₀⟩ := tracks_run reached fresh.tracks
  have tracks : Context.Tracks refs.entries.toList trees true { ctx with refs := some refs } := by
    cases tracks₀ with
    | tree represents sound => exact .tree represents sound
  have tracks' : Context.Tracks refs.entries.toList ([] : List (MarkedTree τ)) false
      ⟨some refs, none, log⟩ := .text (by simp)
  have erased : Agree SameAnswer (attempt.run { ctx with refs := some refs })
      (attempt.erase.run ⟨some refs, none, log⟩) := by
    apply attempt.agree_run attempt.toTask.erase (P := SameVerdict)
    · intro inside
      exact attempt.erase_agrees inside.1 tracks tracks'
    · intro verdict verdict' after after' same
      exact same.toSpan attempt.source attempt.limit
  refine ⟨erased, ?_⟩
  intro free
  have bare : Agree (fun answer answer' => answer.1 = answer'.1)
      (attempt.erase.run ⟨some refs, none, log⟩) (attempt.erase.run ⟨none, none, log⟩) := by
    apply attempt.erase.agree_run attempt.toTask.erase
      (P := fun answer answer' => answer.1 = answer'.1)
    · intro inside
      exact Task.flat_agrees inside (Grammar.usesRefs_of_erase free) ⟨rfl, rfl⟩
    · rintro verdict _ after after' rfl
      rfl
  apply erased.trans bare
  intro answer answer' answer'' same same'
  exact same.1.trans same'

/-- A node that stores a range and is then given up, and a marked node whose range is asked for
again. -/
def speculative : Match UInt8 Nat :=
  byteMatch
    (.choice
      [.seq [.node (some 1) false (.store "n" (.literal [1])), .literal [9]],
        .seq [.store "n" (.node (some 2) true (.literal [1, 2])), .promote (.backref "n")]])
    #[1, 2, 1, 2]

theorem erased_match_agrees_speculative :
    ∃ start ctx : Context Nat, Context.tree 2 = .ok start ∧
      run [.matching abandoned] start = .ok ctx ∧
      Agree SameAnswer (speculative.run { ctx with refs := some ⟨#[⟨"n", ⟨0, 1⟩⟩]⟩ })
        (speculative.erase.run ⟨some ⟨#[⟨"n", ⟨0, 1⟩⟩]⟩, none, #[]⟩) ∧
      (∀ inner, adopting.grammar.Uses adopting.matcher inner → inner.usesRefs = false) ∧
      Agree (fun answer answer' => answer.1 = answer'.1)
        (adopting.run { ctx with refs := some .empty }) (adopting.erase.run ⟨none, none, #[]⟩) := by
  obtain ⟨ctx, reached⟩ := abandoned_returns
  have free : ∀ inner, adopting.grammar.Uses adopting.matcher inner → inner.usesRefs = false := by
    intro inner uses
    have free : adopting.matcher.Within (·.usesRefs = false) 4 := by
      simp [Matcher.Within, Matcher.parts, adopting, byteMatch, Matcher.usesRefs]
    exact uses.of_every (fun rule => rule.elim) (.of_within free)
  exact ⟨_, ctx, opened_smallTree, reached,
    (erased_match_agrees opened_smallTree reached ⟨#[⟨"n", ⟨0, 1⟩⟩]⟩ #[] speculative).1, free,
    (erased_match_agrees opened_smallTree reached .empty #[] adopting).2 free⟩

end Session

end PegForest
