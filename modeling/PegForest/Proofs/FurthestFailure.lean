import PegForest.Proofs.Action.Regroup
import PegForest.Proofs.Matcher.Call

/-!
# The furthest failure that counts

A run that fails reports an offset, and no call that its caller has not recovered from fails further
than that.  A caller recovers from what it only tries, and from all that fails inside of it when it
does not fail itself: an optional matcher and a loop, but also a choice that finds an alternative.
Failures that somebody has recovered from are forgotten, and one of them may well lie beyond the
offset that the run reports.
-/

set_option autoImplicit false

namespace PegForest

variable {α τ ρ : Type}

def Reports (offset : Nat) (computation : Except Fault (Verdict × Context τ)) : Prop :=
  Yields (fun answer => ∀ furthest, answer.1 = .failed furthest → offset ≤ furthest) computation

theorem Reports.of_failed {offset furthest : Nat} (further : offset ≤ furthest) (ctx : Context τ) :
    Reports offset (.ok (.failed furthest, ctx)) := by
  refine .ok ?_
  rintro _ ⟨⟩
  exact further

theorem Reports.of_matches {offset : Nat} {computation : Except Fault (Verdict × Context τ)}
    (matches' : Yields (fun answer => ∃ next, answer.1 = .matched next) computation) :
    Reports offset computation := by
  intro answer returned furthest failed
  obtain ⟨next, matched⟩ := matches' answer returned
  rw [matched] at failed
  cases failed

theorem Reports.mono {offset offset' : Nat} {computation : Except Fault (Verdict × Context τ)}
    (reports : Reports offset computation) (earlier : offset' ≤ offset) :
    Reports offset' computation :=
  fun answer returned furthest failed =>
    Nat.le_trans earlier (reports answer returned furthest failed)

namespace Action

variable {action first second last closing other after item separator : Action τ}
  {ctx ctx' : Context τ} {cursor offset : Nat}

/-! ## Actions that run a failing action first -/

section First

variable (failed : action ctx cursor = .ok (.failed offset, ctx'))
include failed

theorem andThen_reports (second : Action τ) :
    Reports offset (action.andThen second ctx cursor) := by
  simp only [andThen, failed, Fault.ok_bind]
  exact .of_failed (Nat.le_refl _) ctx'

theorem thenIfMoved_reports (second : Action τ) :
    Reports offset (action.thenIfMoved second ctx cursor) := by
  simp only [thenIfMoved, failed, Fault.ok_bind]
  exact .of_failed (Nat.le_refl _) ctx'

theorem nonEmpty_reports : Reports offset (action.nonEmpty ctx cursor) := by
  simp only [nonEmpty, failed, Fault.ok_bind]
  exact .of_failed (Nat.le_refl _) ctx'

theorem store_reports (name : String) : Reports offset (action.store name ctx cursor) := by
  simp only [store, failed, Fault.ok_bind]
  exact .of_failed (Nat.le_refl _) ctx'

theorem attempt_fails :
    Yields (fun answer => answer.1 = .failed offset) (action.attempt ctx cursor) := by
  simp only [attempt, failed, Fault.ok_bind]
  exact .bind_any fun rewound => .ok rfl

theorem probe_fails :
    Yields (fun answer => answer.1 = .failed offset) (action.probe ctx cursor) := by
  simp only [probe, failed, Fault.ok_bind]
  exact .bind_any fun rewound => .ok rfl

theorem building_reports
    (change : Context τ → Option NodeId → Nat → Nat → Except Fault (Context τ)) :
    Reports offset (action.building change ctx cursor) := by
  refine .bind (attempt_fails failed) ?_
  rintro ⟨_, ctx''⟩ rfl
  exact Reports.of_failed (Nat.le_refl _) ctx''

theorem node_reports (tag : Option τ) (bookmark : Bool) :
    Reports offset (action.node tag bookmark ctx cursor) :=
  building_reports failed _

theorem promote_reports : Reports offset (action.promote ctx cursor) :=
  building_reports failed _

theorem ahead_reports : Reports offset (action.ahead ctx cursor) := by
  refine .bind (probe_fails failed) ?_
  rintro ⟨_, ctx''⟩ rfl
  exact Reports.of_failed (Nat.le_refl _) ctx''

theorem choice_reports (rest : List (Action τ)) :
    Reports offset (choice (action :: rest) ctx cursor) := by
  refine .bind (attempt_fails failed) ?_
  rintro ⟨_, ctx''⟩ rfl
  exact Reports.mono (firstOf_bounded _ rest ctx'' cursor) (Nat.le_max_right cursor offset)

end First

/-! ## Actions that go on -/

theorem choice_reports_rest {rest : List (Action τ)} {refusal : Nat}
    (refused : action.attempt ctx cursor = .ok (.failed refusal, ctx'))
    (later : Reports offset (choice rest ctx' cursor)) :
    Reports offset (choice (action :: rest) ctx cursor) := by
  have raised := firstOf_max refusal cursor rest ctx' cursor
  rw [Nat.max_comm] at raised
  simp only [choice, firstOf, refused, Fault.ok_bind, raised]
  refine .bind later ?_
  rintro ⟨next | furthest, ctx''⟩ reported
  · exact Reports.of_matches (.ok ⟨next, rfl⟩)
  · have further := reported furthest rfl
    exact Reports.of_failed (Nat.le_trans further (Nat.le_max_right _ _)) ctx''

theorem andThen_reports_rest {next : Nat}
    (matched : first ctx cursor = .ok (.matched next, ctx'))
    (later : Reports offset (second ctx' next)) :
    Reports offset (first.andThen second ctx cursor) := by
  simp only [andThen, matched, Fault.ok_bind]
  exact later

theorem thenIfMoved_reports_rest {next : Nat}
    (matched : first ctx cursor = .ok (.matched next, ctx')) (moved : next ≠ cursor)
    (later : Reports offset (second ctx' next)) :
    Reports offset (first.thenIfMoved second ctx cursor) := by
  simp only [thenIfMoved, matched, Fault.ok_bind, if_neg moved]
  exact later

theorem greedy_matches
    (matches' : ∀ ctx cursor, Yields (fun answer => ∃ next, answer.1 = .matched next)
      (last ctx cursor)) (rounds : Nat) (ctx : Context τ) (cursor : Nat) :
    Yields (fun answer => ∃ next, answer.1 = .matched next)
      (action.greedy last rounds ctx cursor) := by
  induction rounds generalizing ctx cursor with
  | zero => exact matches' ctx cursor
  | succ rounds ih =>
      refine .bind_any ?_
      rintro ⟨next | offset, ctx'⟩
      · dsimp only
        split
        · exact .ok ⟨next, rfl⟩
        · exact ih ctx' next
      · exact .ok ⟨cursor, rfl⟩

theorem probe_of_attempt (refused : action.attempt ctx cursor = .ok (.failed offset, ctx')) :
    action.probe ctx cursor = .ok (.failed offset, ctx') := by
  obtain ⟨⟨next | furthest, ctx''⟩, acted, rest⟩ := Fault.bind_eq_ok.mp refused
  · cases rest
  · simp only [probe, acted, Fault.ok_bind]
    exact rest

theorem upTo_reports_rest {left refusal : Nat}
    (refused : action.attempt ctx cursor = .ok (.failed refusal, ctx'))
    (later : Reports offset (action.upTo left ctx' (cursor + 1))) :
    Reports offset (action.upTo (left + 1) ctx cursor) := by
  simp only [upTo, probe_of_attempt refused, Fault.ok_bind]
  exact later

/-! ## Brackets -/

theorem closeOr_of_failed {unclosed refusal : Nat} {ctx'' : Context τ}
    (missing : closing.attempt ctx cursor = .ok (.failed unclosed, ctx'))
    (failed : other ctx' cursor = .ok (.failed refusal, ctx'')) :
    closing.closeOr other after ctx cursor = .ok (.failed (max unclosed refusal), ctx'') := by
  simp only [closeOr, missing, Fault.ok_bind, failed, Fault.pure_eq_ok]

theorem closeOr_reports_rest {unclosed next : Nat} {ctx'' : Context τ}
    (missing : closing.attempt ctx cursor = .ok (.failed unclosed, ctx'))
    (matched : other ctx' cursor = .ok (.matched next, ctx''))
    (later : Reports offset (after ctx'' next)) :
    Reports offset (closing.closeOr other after ctx cursor) := by
  simp only [closeOr, missing, Fault.ok_bind, matched]
  exact later

end Action

/-! ## Calls -/

namespace Setting

variable [Atom α] {setting : Setting α τ ρ} {visit call : Visit α τ ρ} {tried : Bool}
  {depth cursor next offset : Nat} {matcher inner rest : Matcher α τ ρ} {ctx ctx' : Context τ}

def Reports (setting : Setting α τ ρ) (offset : Nat) (visit : Visit α τ ρ) : Prop :=
  PegForest.Reports offset
    (setting.action visit.depth visit.matcher visit.ctx visit.cursor)

theorem Reports.le {furthest : Nat} (reports : setting.Reports offset visit)
    (failed : setting.FailsAt visit furthest) : offset ≤ furthest := by
  obtain ⟨ctx', acted⟩ := failed
  exact reports _ acted furthest rfl

theorem reports_of_failsAt (failed : setting.FailsAt visit offset) :
    setting.Reports offset visit := by
  obtain ⟨ctx', acted⟩ := failed
  rw [Reports, acted]
  exact .of_failed (Nat.le_refl _) ctx'

theorem reports_of_first (called : matcher.firstCall = some (false, inner))
    (failed : setting.FailsAt ⟨depth, inner, ctx, cursor⟩ offset) :
    setting.Reports offset ⟨depth, matcher, ctx, cursor⟩ := by
  obtain ⟨ctx', acted⟩ := failed
  unfold Matcher.firstCall at called
  split at called
  all_goals cases called
  · exact Action.andThen_reports acted _
  · exact Action.choice_reports acted _
  · exact Action.nonEmpty_reports acted
  · exact Action.thenIfMoved_reports acted _
  · exact Action.ahead_reports acted
  · exact Action.store_reports acted _
  · exact Action.node_reports acted _ _
  · exact Action.promote_reports acted
  · exact Action.andThen_reports acted _
  · exact Action.thenIfMoved_reports acted _
  · exact Action.andThen_reports acted _
  · exact Action.andThen_reports acted _

theorem reports_of_star : setting.Reports offset ⟨depth, .star inner, ctx, cursor⟩ :=
  .of_matches (Action.greedy_matches (fun _ _ => .error _) _ ctx cursor)

theorem reports_of_atMost {most : Nat} :
    setting.Reports offset ⟨depth, .timesBetween 0 most inner, ctx, cursor⟩ :=
  .of_matches (Action.greedy_matches (fun _ cursor => .ok ⟨cursor, rfl⟩) _ ctx cursor)

theorem reports_of_seqOpt {steps : List (Matcher α τ ρ)} :
    setting.Reports offset ⟨depth, .seqOpt steps, ctx, cursor⟩ :=
  .of_matches (Action.sequenceOpt_matches _ ctx cursor)

theorem reports_of_afterMatch (called : matcher.firstCall = some (tried, inner))
    (matched : setting.Matches ⟨depth, inner, ctx, cursor⟩ next ctx')
    (left : matcher.afterMatch (next != cursor) = some rest)
    (later : setting.Reports offset ⟨depth, rest, ctx', next⟩) :
    setting.Reports offset ⟨depth, matcher, ctx, cursor⟩ := by
  unfold Matcher.afterMatch at left
  split at left
  · cases called
    cases left
    exact Action.andThen_reports_rest matched later
  · exact reports_of_seqOpt
  · exact reports_of_star
  · cases called
    obtain ⟨moved, same⟩ := Option.ite_none_right_eq_some.mp left
    cases same
    exact Action.thenIfMoved_reports_rest matched (bne_iff_ne.mp moved) later
  · cases called
    cases left
    exact Action.andThen_reports_rest matched later
  · next least most inner =>
      cases called
      obtain ⟨moved, same⟩ := Option.ite_none_right_eq_some.mp left
      cases same
      refine Action.thenIfMoved_reports_rest matched (bne_iff_ne.mp moved) ?_
      have bound : most - (least + 1) = most - 1 - least := by omega
      rw [bound]
      exact later
  · exact reports_of_atMost
  · cases left

theorem reports_of_afterFailure {cursor' : Nat} (called : matcher.firstCall = some (tried, inner))
    (refused : setting.GivesUp ⟨depth, inner, ctx, cursor⟩ ctx')
    (left : matcher.afterFailure setting.window cursor = some (rest, cursor'))
    (later : setting.Reports offset ⟨depth, rest, ctx', cursor'⟩) :
    setting.Reports offset ⟨depth, matcher, ctx, cursor⟩ := by
  unfold Matcher.afterFailure at left
  split at left
  · cases called
    cases left
    obtain ⟨refusal, gaveUp⟩ := refused
    exact Action.choice_reports_rest gaveUp later
  · cases called
    obtain ⟨more, same⟩ := Option.ite_none_left_eq_some.mp left
    cases same
    obtain ⟨refusal, gaveUp⟩ := refused
    obtain ⟨count, enough⟩ := Nat.exists_eq_add_one_of_ne_zero more
    have fewer : setting.window.left (cursor + 1) = count := by
      unfold Window.left at enough ⊢
      omega
    unfold Reports action Grammar.run Matcher.eval at later ⊢
    simp only at later ⊢
    rw [fewer] at later
    rw [enough]
    exact Action.upTo_reports_rest gaveUp later
  · cases left

/-! ## Rounds of blocks and lists -/

theorem CloseCalls.reports {closing other : Matcher α τ ρ} {after : Action τ}
    (calls : setting.CloseCalls depth closing other ctx cursor tried call) (kept : tried = false)
    (failed : setting.FailsAt call offset) :
    PegForest.Reports offset
      ((setting.action depth closing).closeOr (setting.action depth other) after ctx cursor) := by
  cases calls with
  | closing => cases kept
  | missing unclosed refused =>
      obtain ⟨bracket, gaveUp⟩ := unclosed
      obtain ⟨ctx₂, acted⟩ := refused
      obtain ⟨ctx₁, acted'⟩ := failed
      have same := Action.attempt_fails acted' _ gaveUp
      cases same
      rw [Action.closeOr_of_failed gaveUp acted]
      exact .of_failed (Nat.le_max_left _ _) ctx₂
  | other unclosed =>
      obtain ⟨bracket, gaveUp⟩ := unclosed
      obtain ⟨ctx₂, acted⟩ := failed
      rw [Action.closeOr_of_failed gaveUp acted]
      exact .of_failed (Nat.le_max_right _ _) ctx₂

theorem BlockCalls.reports {item closing : Matcher α τ ρ}
    (calls : setting.BlockCalls depth item closing ctx cursor tried call) (kept : tried = false)
    (failed : setting.FailsAt call offset) (rounds : Nat) :
    PegForest.Reports offset
      (Action.blockRounds (setting.action depth item) (setting.action depth closing) rounds ctx
        cursor) := by
  induction calls generalizing rounds with
  | round calls =>
      cases rounds with
      | zero => exact .of_matches (.error _)
      | succ rounds => exact calls.reports kept failed
  | again unclosed matched moved _ ih =>
      cases rounds with
      | zero => exact .of_matches (.error _)
      | succ rounds =>
          obtain ⟨bracket, gaveUp⟩ := unclosed
          refine Action.closeOr_reports_rest gaveUp matched ?_
          rw [if_neg moved]
          exact ih kept failed rounds

theorem ListCalls.reports {item separator closing : Matcher α τ ρ}
    (calls : setting.ListCalls depth item separator closing ctx cursor tried call)
    (kept : tried = false) (failed : setting.FailsAt call offset) (rounds : Nat) :
    PegForest.Reports offset
      (Action.listRounds (setting.action depth item) (setting.action depth separator)
        (setting.action depth closing) rounds ctx cursor) := by
  induction calls generalizing rounds with
  | round calls =>
      cases rounds with
      | zero => exact .of_matches (.error _)
      | succ rounds => exact calls.reports kept failed
  | separated unclosed matched calls =>
      cases rounds with
      | zero => exact .of_matches (.error _)
      | succ rounds =>
          obtain ⟨bracket, gaveUp⟩ := unclosed
          exact Action.closeOr_reports_rest gaveUp matched (calls.reports kept failed)
  | again unclosed matched unclosed' matched' moved _ ih =>
      cases rounds with
      | zero => exact .of_matches (.error _)
      | succ rounds =>
          obtain ⟨bracket, gaveUp⟩ := unclosed
          obtain ⟨bracket', gaveUp'⟩ := unclosed'
          refine Action.closeOr_reports_rest gaveUp matched ?_
          refine Action.closeOr_reports_rest gaveUp' matched' ?_
          rw [if_neg moved]
          exact ih kept failed rounds

/-- A visit that fails is not before a failure of a call that it has to make. -/
theorem Calls.reports (calls : setting.Calls visit tried call) (kept : tried = false)
    (failed : setting.FailsAt call offset) : setting.Reports offset visit := by
  induction calls with
  | first called =>
      subst kept
      exact reports_of_first called failed
  | afterMatch called matched left _ ih =>
      exact reports_of_afterMatch called matched left (ih kept failed)
  | afterFailure called refused left _ ih =>
      exact reports_of_afterFailure called refused left (ih kept failed)
  | block opened rounds =>
      exact Action.andThen_reports_rest opened (rounds.reports kept failed _)
  | list opened rounds =>
      exact Action.andThen_reports_rest opened (rounds.reports kept failed _)
  | rule => exact reports_of_failsAt failed

/-! ## Whole runs -/

/-- A failure that nobody has recovered from is not beyond that of the first visit. -/
theorem Holds.further (holds : setting.Holds visit call) (failed : setting.FailsAt call offset) :
    ∃ furthest, setting.FailsAt visit furthest ∧ offset ≤ furthest := by
  induction holds using Relation.ReflTransGen.head_induction_on with
  | refl => exact ⟨offset, failed, Nat.le_refl offset⟩
  | head step _ ih =>
      obtain ⟨calls, furthest, failed'⟩ := step
      obtain ⟨refusal, refused, further⟩ := ih
      have reported := (calls.reports rfl refused).le failed'
      exact ⟨furthest, failed', Nat.le_trans further reported⟩

/-- Among the calls of a run that lead to a visit, somebody recovers or nobody does. -/
theorem Invokes.holds_or_recovered (invokes : setting.Invokes visit call) :
    setting.Holds visit call ∨ setting.Recovered visit call := by
  induction invokes using Relation.ReflTransGen.head_induction_on with
  | refl => exact .inl .refl
  | @head caller callee step later ih =>
      by_cases recovers : setting.Recovers caller callee
      · exact .inr ⟨caller, callee, .refl, step, recovers, later⟩
      · obtain ⟨tried, calls⟩ := step
        rcases ih with holds | ⟨caller', callee', before, step', recovers', after⟩
        · rw [Recovers, not_or, not_forall_not] at recovers
          cases tried with
          | true => exact absurd calls recovers.1
          | false => exact .inl (.head ⟨calls, recovers.2⟩ holds)
        · exact .inr ⟨caller', callee', .head ⟨tried, calls⟩ before, step', recovers', after⟩

end Setting

/-! ## Parses -/

namespace Session

variable [Atom α]

def Task.setting (task : Task α τ) (input : Array α) : Setting α τ task.Rule :=
  ⟨task.grammar, task.order, ⟨input, input.size⟩⟩

def Task.entry (task : Task α τ) (parser : Parser) (ctx : Context τ) : Visit α τ task.Rule :=
  ⟨task.depth, task.matcher, if parser.reset then ctx.reset else ctx, 0⟩

theorem Task.entry_fails {task : Task α τ} {parser : Parser} {describe : α → String}
    {input : Array α} {ctx ctx' : Context τ} {range : Range} {name detail : String}
    (ran : parser.runOn describe task.onSpan ctx input =
      .ok (.error (.unexpected range name detail), ctx')) :
    (task.setting input).FailsAt (task.entry parser ctx) range.start := by
  obtain ⟨after, acted, -⟩ := failed_of_unexpected ran
  exact ⟨after, acted⟩

/-- A syntax error points at the furthest failure that no caller has recovered from: the matcher of
the parse fails there, and whatever is invoked at any depth and fails further is invoked through a
caller that has recovered from it. -/
theorem syntax_error_is_furthest {task : Task α τ} {parser : Parser} {describe : α → String}
    {input : Array α} {ctx ctx' : Context τ} {range : Range} {name detail : String}
    (ran : parser.runOn describe task.onSpan ctx input =
      .ok (.error (.unexpected range name detail), ctx')) :
    (task.setting input).FailsAt (task.entry parser ctx) range.start ∧
    (∀ call offset, (task.setting input).Holds (task.entry parser ctx) call →
      (task.setting input).FailsAt call offset → offset ≤ range.start) ∧
    ∀ call offset, (task.setting input).Invokes (task.entry parser ctx) call →
      (task.setting input).FailsAt call offset → range.start < offset →
      (task.setting input).Recovered (task.entry parser ctx) call := by
  have fails := task.entry_fails ran
  have bounded : ∀ call offset, (task.setting input).Holds (task.entry parser ctx) call →
      (task.setting input).FailsAt call offset → offset ≤ range.start := by
    intro call offset holds failed
    obtain ⟨furthest, failed', further⟩ := holds.further failed
    exact Nat.le_trans further ((Setting.reports_of_failsAt failed').le fails)
  refine ⟨fails, bounded, ?_⟩
  intro call offset invokes failed beyond
  rcases invokes.holds_or_recovered with holds | recovered
  · exact absurd (bounded call offset holds failed) (Nat.not_le.mpr beyond)
  · exact recovered

/-- An optional pair whose second half is missing, and then a matcher that fails before that. -/
def recovering : Task UInt8 Nat :=
  { grammar := fun rule : Empty => nomatch rule
    order := .natural
    depth := 0
    matcher := .seq [.opt (.seq [.atom 97, .atom 98]), .atom 120] }

theorem recovering_run :
    Parser.runOn {} Text.byteLiteral recovering.onSpan .text #[97, 99] =
      .ok (.error (.unexpected ⟨0, 1⟩ "<input>" "unexpected b'a'"),
        ⟨some .empty, none, #[.parseFailed "<input>" 0 2]⟩) :=
  rfl

theorem syntax_error_is_furthest_recovering :
    (recovering.setting #[97, 99]).FailsAt (recovering.entry {} .text) 0 ∧
    ∀ call offset, (recovering.setting #[97, 99]).Invokes (recovering.entry {} .text) call →
      (recovering.setting #[97, 99]).FailsAt call offset → 0 < offset →
      (recovering.setting #[97, 99]).Recovered (recovering.entry {} .text) call := by
  obtain ⟨fails, -, recovered⟩ := syntax_error_is_furthest recovering_run
  exact ⟨fails, recovered⟩

/-- The pair is invoked and fails at its second half, and the parse reports an earlier place. -/
theorem syntax_error_before_failure :
    (∃ ctx, Parser.runOn {} Text.byteLiteral recovering.onSpan .text #[97, 99] =
      .ok (.error (.unexpected ⟨0, 1⟩ "<input>" "unexpected b'a'"), ctx)) ∧
    ∃ call, (recovering.setting #[97, 99]).Invokes (recovering.entry {} .text) call ∧
      (recovering.setting #[97, 99]).FailsAt call 1 := by
  refine ⟨⟨_, recovering_run⟩, ⟨0, .seq [.atom 97, .atom 98], .text, 0⟩, ?_, ⟨_, rfl⟩⟩
  have option : (recovering.setting #[97, 99]).Calls (recovering.entry {} .text) false
      ⟨0, .opt (.seq [.atom 97, .atom 98]), .text, 0⟩ := .first rfl
  have pair : (recovering.setting #[97, 99]).Calls
      ⟨0, .opt (.seq [.atom 97, .atom 98]), .text, 0⟩ true
      ⟨0, .seq [.atom 97, .atom 98], .text, 0⟩ := .first rfl
  exact .head ⟨false, option⟩ (.single ⟨true, pair⟩)

end Session

end PegForest
