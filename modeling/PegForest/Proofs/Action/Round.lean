import PegForest.Proofs.Matcher.Consume

/-!
# Loops round by round

A loop takes rounds, and nothing bounds their number but the rounds themselves: a round ends the loop
or lets it go on, and it lets it go on only from a later place.  What a matcher with a loop does is
what such rounds do, so the number of rounds that it is given never shows.
-/

set_option autoImplicit false

namespace PegForest

variable {α τ ρ : Type}

inductive Progress (τ : Type) where
  | ends (verdict : Verdict) (ctx : Context τ)
  | goesOn (place : Nat) (ctx : Context τ)

abbrev Round (τ : Type) := Nat → Context τ → Nat → Except Fault (Progress τ)

def Progress.resume (loop : Action τ) : Progress τ → Except Fault (Verdict × Context τ)
  | ends verdict ctx => .ok (verdict, ctx)
  | goesOn place ctx => loop ctx place

def Progress.Leads (cursor limit : Nat) : Progress τ → Prop
  | ends _ _ => True
  | goesOn place _ => cursor < place ∧ place ≤ limit

namespace Round

/-- What a loop answers that takes rounds for as long as they go on, each of them from a later place
than the one before and none beyond the limit. -/
inductive Runs (round : Round τ) (limit : Nat) :
    Nat → Context τ → Nat → Except Fault (Verdict × Context τ) → Prop where
  | stops {count cursor : Nat} {ctx : Context τ} {fault : Fault}
      (stopped : round count ctx cursor = .error fault) :
      Runs round limit count ctx cursor (.error fault)
  | ends {count cursor : Nat} {ctx after : Context τ} {verdict : Verdict}
      (ended : round count ctx cursor = .ok (.ends verdict after)) :
      Runs round limit count ctx cursor (.ok (verdict, after))
  | goesOn {count cursor place : Nat} {ctx after : Context τ}
      {answer : Except Fault (Verdict × Context τ)}
      (taken : round count ctx cursor = .ok (.goesOn place after)) (moved : cursor < place)
      (bounded : place ≤ limit) (rest : Runs round limit (count + 1) after place answer) :
      Runs round limit count ctx cursor answer

/-- The loop does what the round does over and over. -/
def Drives (round : Round τ) (limit : Nat) (loop : Action τ) : Prop :=
  ∀ ctx cursor, cursor ≤ limit → round.Runs limit 0 ctx cursor (loop ctx cursor)

def Moves (round : Round τ) (zone : Zone α) : Prop :=
  ∀ count ctx cursor, zone.Holds cursor →
    Yields (Progress.Leads cursor zone.limit) (round count ctx cursor)

variable {zone : Zone α} {round : Round τ}

theorem Moves.runs_of_step (moves : round.Moves zone) {count cursor : Nat} {ctx : Context τ}
    {loop : Action τ} {answer : Except Fault (Verdict × Context τ)} (holds : zone.Holds cursor)
    (step : answer = round count ctx cursor >>= Progress.resume loop)
    (rest : ∀ after place, zone.Holds place → cursor < place →
      round.Runs zone.limit (count + 1) after place (loop after place)) :
    round.Runs zone.limit count ctx cursor answer := by
  rw [step]
  cases taken : round count ctx cursor with
  | error fault => exact .stops taken
  | ok progress =>
      cases progress with
      | ends verdict after => exact .ends taken
      | goesOn place after =>
          obtain ⟨moved, bounded⟩ := moves count ctx cursor holds _ taken
          exact .goesOn taken moved bounded
            (rest after place (holds.later (Nat.le_of_lt moved) bounded) moved)

/-- A loop that unfolds to a round and itself is the loop of that round when it is given more rounds
than there are places left. -/
theorem Moves.runs (moves : round.Moves zone) (loop : Nat → Nat → Action τ) (least : Nat)
    (unfolds : ∀ count rounds ctx cursor, least ≤ count → zone.Holds cursor →
      loop count (rounds + 1) ctx cursor =
        round count ctx cursor >>= Progress.resume (loop (count + 1) rounds)) (rounds : Nat) :
    ∀ count ctx cursor, least ≤ count → zone.Holds cursor → zone.limit - cursor < rounds →
      round.Runs zone.limit count ctx cursor (loop count rounds ctx cursor) := by
  induction rounds with
  | zero =>
      intro count ctx cursor _ _ enough
      exact absurd enough (Nat.not_lt_zero _)
  | succ rounds ih =>
      intro count ctx cursor begun holds enough
      apply moves.runs_of_step holds (unfolds count rounds ctx cursor begun holds)
      intro after place holds' moved
      have within := holds'.2
      exact ih (count + 1) after place (Nat.le_succ_of_le begun) holds' (by omega)

end Round

/-! ## The rounds of the loops -/

namespace Action

/-- Repetition: the first `least` rounds have to match, and after `most` rounds, if there is such a
bound, the loop ends. -/
def repeatRound (least : Nat) (most : Option Nat) (action : Action τ) : Round τ :=
  fun count ctx cursor =>
    if count < least then do
      match ← action ctx cursor with
      | (.matched next, ctx) =>
          return if next = cursor then .ends (.matched next) ctx else .goesOn next ctx
      | (.failed offset, ctx) => return .ends (.failed offset) ctx
    else if most.any (· ≤ count) then .ok (.ends (.matched cursor) ctx)
    else do
      match ← action.attempt ctx cursor with
      | (.matched next, ctx) =>
          return if next = cursor then .ends (.matched next) ctx else .goesOn next ctx
      | (.failed _, ctx) => return .ends (.matched cursor) ctx

def upToRound (limit : Nat) (action : Action τ) : Round τ := fun _ ctx cursor => do
  match ← action.probe ctx cursor with
  | (.matched _, ctx) => return .ends (.matched cursor) ctx
  | (.failed _, ctx) =>
      return if cursor < limit then .goesOn (cursor + 1) ctx else .ends (.failed cursor) ctx

def closeRound (closing other : Action τ)
    (after : Context τ → Nat → Except Fault (Progress τ)) (ctx : Context τ) (cursor : Nat) :
    Except Fault (Progress τ) := do
  match ← closing.attempt ctx cursor with
  | (.matched next, ctx) => return .ends (.matched next) ctx
  | (.failed unclosed, ctx) =>
      match ← other ctx cursor with
      | (.matched next, ctx) => after ctx next
      | (.failed offset, ctx) => return .ends (.failed (max unclosed offset)) ctx

def blockRound (item closing : Action τ) : Round τ := fun _ ctx cursor =>
  closing.closeRound item
    (fun ctx next =>
      .ok (if next = cursor then .ends (.failed cursor) ctx else .goesOn next ctx))
    ctx cursor

def listRound (item separator closing : Action τ) : Round τ := fun _ ctx cursor =>
  closing.closeRound item
    (fun ctx afterItem =>
      closing.closeRound separator
        (fun ctx next =>
          .ok (if next = cursor then .ends (.failed afterItem) ctx else .goesOn next ctx))
        ctx afterItem)
    ctx cursor

variable {zone : Zone α} {action item separator closing rest : Action τ}

/-! ### Repetition -/

theorem leads_of_matched {cursor next : Nat} {ctx : Context τ} (forward : cursor ≤ next)
    (bounded : next ≤ zone.limit) :
    Progress.Leads cursor zone.limit
      (if next = cursor then .ends (.matched next) ctx else .goesOn next ctx) := by
  by_cases same : next = cursor
  · rw [if_pos same]
    trivial
  · rw [if_neg same]
    exact ⟨by omega, bounded⟩

theorem Gains.repeat_moves (gains : Gains zone 0 action) (least : Nat) (most : Option Nat) :
    (action.repeatRound least most).Moves zone := by
  intro count ctx cursor holds
  unfold repeatRound
  split
  · refine (gains ctx cursor holds).bind ?_
    rintro ⟨verdict, after⟩ reaches
    cases verdict with
    | matched next => exact .ok (leads_of_matched (reaches next rfl).1 (reaches next rfl).2)
    | failed offset => exact .ok trivial
  · split
    · exact .ok trivial
    · refine (gains.attempt ctx cursor holds).bind ?_
      rintro ⟨verdict, after⟩ reaches
      cases verdict with
      | matched next => exact .ok (leads_of_matched (reaches next rfl).1 (reaches next rfl).2)
      | failed offset => exact .ok trivial

theorem greedy_unfolds {least : Nat} {most : Option Nat} {count : Nat} (begun : least ≤ count)
    (unbounded : most.any (· ≤ count) = false) (rounds : Nat) (ctx : Context τ) (cursor : Nat) :
    action.greedy rest (rounds + 1) ctx cursor =
      action.repeatRound least most count ctx cursor >>= Progress.resume (action.greedy rest rounds) := by
  simp only [greedy, repeatRound, if_neg (Nat.not_lt_of_le begun), unbounded, Bool.false_eq_true,
    if_false, bind_assoc]
  congr 1
  funext answer
  obtain ⟨verdict, after⟩ := answer
  cases verdict with
  | matched next =>
      by_cases same : next = cursor
      · simp only [if_pos same]
        rfl
      · simp only [if_neg same]
        rfl
  | failed offset => rfl

theorem thenIfMoved_unfolds {least : Nat} {most : Option Nat} {count : Nat} (early : count < least)
    (ctx : Context τ) (cursor : Nat) :
    action.thenIfMoved rest ctx cursor =
      action.repeatRound least most count ctx cursor >>= Progress.resume rest := by
  simp only [thenIfMoved, repeatRound, if_pos early, bind_assoc]
  congr 1
  funext answer
  obtain ⟨verdict, after⟩ := answer
  cases verdict with
  | matched next =>
      by_cases same : next = cursor
      · simp only [if_pos same]
        rfl
      · simp only [if_neg same]
        rfl
  | failed offset => rfl

theorem Gains.greedy_runs (gains : Gains zone 0 action) {least count : Nat} (begun : least ≤ count)
    {ctx : Context τ} {cursor : Nat} (holds : zone.Holds cursor) :
    (action.repeatRound least none).Runs zone.limit count ctx cursor
      (action.greedy (stop .exhausted) (zone.left cursor + 1) ctx cursor) := by
  apply (gains.repeat_moves least none).runs (fun _ => action.greedy (stop .exhausted)) least ?_ _
    count ctx cursor begun holds (Nat.lt_succ_self _)
  intro count rounds ctx cursor begun _
  exact greedy_unfolds begun rfl rounds ctx cursor

theorem Gains.bounded_runs (gains : Gains zone 0 action) {least most count : Nat}
    (begun : least ≤ count) {ctx : Context τ} {cursor : Nat} (holds : zone.Holds cursor) :
    (action.repeatRound least (some most)).Runs zone.limit count ctx cursor
      (action.greedy succeed (most - count) ctx cursor) := by
  apply (gains.repeat_moves least (some most)).runs
    (fun count _ => action.greedy succeed (most - count)) least ?_ (zone.left cursor + 1) count ctx
    cursor begun holds (Nat.lt_succ_self _)
  intro count rounds ctx cursor begun _
  by_cases more : count < most
  · have left : most - count = most - (count + 1) + 1 := by omega
    have unbounded : (some most).any (· ≤ count) = false := by simp [more]
    rw [left]
    exact greedy_unfolds begun unbounded _ ctx cursor
  · -- The loop has no rounds left, and its round ends it here as well.
    have left : most - count = 0 := by omega
    have bounded : (some most).any (· ≤ count) = true := by
      simp only [Option.any_some, decide_eq_true_eq]
      omega
    rw [left]
    simp only [repeatRound, if_neg (Nat.not_lt_of_le begun), bounded, if_true]
    rfl

theorem Gains.atLeast_runs (gains : Gains zone 0 action) {least : Nat} {most : Option Nat}
    (runs : ∀ ctx cursor, zone.Holds cursor →
      (action.repeatRound least most).Runs zone.limit least ctx cursor (rest ctx cursor))
    (left : Nat) :
    ∀ count ctx cursor, count + left = least → zone.Holds cursor →
      (action.repeatRound least most).Runs zone.limit count ctx cursor
        (action.atLeast rest left ctx cursor) := by
  induction left with
  | zero =>
      rintro count ctx cursor rfl holds
      exact runs ctx cursor holds
  | succ left ih =>
      intro count ctx cursor enough holds
      have early : count < least := by omega
      apply (gains.repeat_moves least most).runs_of_step holds (thenIfMoved_unfolds early ctx cursor)
      intro after place holds' _
      exact ih (count + 1) after place (by omega) holds'

/-! ### Searches -/

theorem upTo_moves (limit : Nat) (bounded : limit ≤ zone.limit) :
    (action.upToRound limit).Moves zone := by
  intro count ctx cursor holds
  unfold upToRound
  apply Yields.bind_any
  rintro ⟨verdict, after⟩
  cases verdict with
  | matched next => exact .ok trivial
  | failed offset =>
      apply Yields.ok
      by_cases more : cursor < limit
      · rw [if_pos more]
        exact ⟨Nat.lt_succ_self cursor, Nat.le_trans more bounded⟩
      · rw [if_neg more]
        trivial

theorem upTo_unfolds {cursor : Nat} (within : cursor ≤ zone.limit) (ctx : Context τ) :
    action.upTo (zone.left cursor) ctx cursor =
      action.upToRound zone.limit 0 ctx cursor >>=
        Progress.resume fun ctx place => action.upTo (zone.left place) ctx place := by
  cases left : zone.left cursor with
  | zero =>
      have atEnd : ¬cursor < zone.limit := by
        unfold Window.left at left
        omega
      simp only [upTo, upToRound, if_neg atEnd, bind_assoc]
      congr 1
      funext answer
      obtain ⟨verdict, after⟩ := answer
      cases verdict <;> rfl
  | succ left' =>
      have more : cursor < zone.limit ∧ zone.left (cursor + 1) = left' := by
        unfold Window.left at left ⊢
        omega
      simp only [upTo, upToRound, if_pos more.1, bind_assoc]
      congr 1
      funext answer
      obtain ⟨verdict, after⟩ := answer
      cases verdict with
      | matched next => rfl
      | failed offset =>
          simp only [Fault.pure_eq_ok, Fault.ok_bind, Progress.resume, more.2]

theorem upTo_runs {ctx : Context τ} {cursor : Nat} (holds : zone.Holds cursor) :
    (action.upToRound zone.limit).Runs zone.limit 0 ctx cursor
      (action.upTo (zone.left cursor) ctx cursor) := by
  apply (upTo_moves zone.limit (Nat.le_refl _)).runs
    (fun _ _ ctx cursor => action.upTo (zone.left cursor) ctx cursor) 0 ?_ (zone.left cursor + 1) 0
    ctx cursor (Nat.le_refl 0) holds (Nat.lt_succ_self _)
  intro count rounds ctx cursor _ holds
  exact upTo_unfolds holds.2 ctx

/-! ### Loops between brackets -/

theorem Gains.close_leads (gains : Gains zone 0 item)
    {after : Context τ → Nat → Except Fault (Progress τ)} {start cursor : Nat} {ctx : Context τ}
    (holds : zone.Holds cursor)
    (leads : ∀ ctx next, cursor ≤ next → zone.Holds next →
      Yields (Progress.Leads start zone.limit) (after ctx next)) :
    Yields (Progress.Leads start zone.limit) (closing.closeRound item after ctx cursor) := by
  unfold closeRound
  apply Yields.bind_any
  rintro ⟨verdict, ctx'⟩
  cases verdict with
  | matched next => exact .ok trivial
  | failed unclosed =>
      refine (gains ctx' cursor holds).bind ?_
      rintro ⟨verdict, ctx''⟩ reaches
      cases verdict with
      | matched next =>
          obtain ⟨forward, bounded⟩ := reaches next rfl
          exact leads ctx'' next forward (holds.later forward bounded)
      | failed offset => exact .ok trivial

theorem closeOr_unfolds {loop second : Action τ}
    {after : Context τ → Nat → Except Fault (Progress τ)}
    (afters : ∀ ctx next, second ctx next = after ctx next >>= Progress.resume loop)
    (ctx : Context τ) (cursor : Nat) :
    closing.closeOr item second ctx cursor =
      closing.closeRound item after ctx cursor >>= Progress.resume loop := by
  simp only [closeOr, closeRound, bind_assoc]
  congr 1
  funext answer
  obtain ⟨verdict, ctx'⟩ := answer
  cases verdict with
  | matched next => rfl
  | failed unclosed =>
      simp only [bind_assoc]
      congr 1
      funext answer
      obtain ⟨verdict, ctx''⟩ := answer
      cases verdict with
      | matched next => exact afters ctx'' next
      | failed offset => rfl

theorem leads_of_moved {start next offset : Nat} {ctx : Context τ} (forward : start ≤ next)
    (bounded : next ≤ zone.limit) :
    Progress.Leads start zone.limit
      (if next = start then .ends (.failed offset) ctx else .goesOn next ctx) := by
  by_cases same : next = start
  · rw [if_pos same]
    trivial
  · rw [if_neg same]
    exact ⟨by omega, bounded⟩

theorem Gains.block_runs (gains : Gains zone 0 item) {ctx : Context τ} {cursor : Nat}
    (holds : zone.Holds cursor) :
    (item.blockRound closing).Runs zone.limit 0 ctx cursor
      (item.blockRounds closing (zone.left cursor + 1) ctx cursor) := by
  have moves : (item.blockRound closing).Moves zone := by
    intro count ctx cursor holds
    apply gains.close_leads holds
    intro ctx next forward holds'
    exact .ok (leads_of_moved forward holds'.2)
  apply moves.runs (fun _ => item.blockRounds closing) 0 ?_ _ 0 ctx cursor (Nat.le_refl 0) holds
    (Nat.lt_succ_self _)
  intro count rounds ctx cursor _ _
  apply closeOr_unfolds
  intro ctx next
  by_cases same : next = cursor
  · simp only [if_pos same]
    rfl
  · simp only [if_neg same]
    rfl

theorem Gains.list_runs (gains : Gains zone 0 item) (gains' : Gains zone 0 separator)
    {ctx : Context τ} {cursor : Nat} (holds : zone.Holds cursor) :
    (item.listRound separator closing).Runs zone.limit 0 ctx cursor
      (item.listRounds separator closing (zone.left cursor + 1) ctx cursor) := by
  have moves : (item.listRound separator closing).Moves zone := by
    intro count ctx cursor holds
    apply gains.close_leads holds
    intro ctx afterItem forward holds'
    apply gains'.close_leads holds'
    intro ctx next forward' holds''
    exact .ok (leads_of_moved (Nat.le_trans forward forward') holds''.2)
  apply moves.runs (fun _ => item.listRounds separator closing) 0 ?_ _ 0 ctx cursor (Nat.le_refl 0)
    holds (Nat.lt_succ_self _)
  intro count rounds ctx cursor _ _
  apply closeOr_unfolds
  intro ctx afterItem
  apply closeOr_unfolds
  intro ctx next
  by_cases same : next = cursor
  · simp only [if_pos same]
    rfl
  · simp only [if_neg same]
    rfl

end Action

/-! ## The loops of matchers -/

variable [Atom α]

/-- The action before the loop of a matcher, and the round of the loop. -/
def Matcher.loop? (order : Comparator α) (window : Window α) (call : ρ → Action τ) :
    Matcher α τ ρ → Option (Action τ × Round τ)
  | .star inner => some (.succeed, (inner.eval order window call).repeatRound 0 none)
  | .plus inner => some (.succeed, (inner.eval order window call).repeatRound 1 none)
  | .timesBetween least most inner =>
      some (.succeed, (inner.eval order window call).repeatRound least (some most))
  | .upTo inner => some (.succeed, (inner.eval order window call).upToRound window.limit)
  | .block opening item closing =>
      some (opening.eval order window call,
        (item.eval order window call).blockRound (closing.eval order window call))
  | .list opening item separator closing =>
      some (opening.eval order window call,
        (item.eval order window call).listRound (separator.eval order window call)
          (closing.eval order window call))
  | _ => none

theorem Matcher.eval_of_loop? {order : Comparator α} {zone : Zone α} {call : ρ → Action τ}
    (loose : ¬zone.strict) (forward : Calls.Forward zone call) (first : zone.low = 0)
    {matcher : Matcher α τ ρ} {before : Action τ} {round : Round τ}
    (loops : matcher.loop? order zone.toWindow call = some (before, round)) :
    ∃ loop, matcher.eval order zone.toWindow call = before.andThen loop ∧
      round.Drives zone.limit loop := by
  -- The zone begins at zero, so all places up to the limit lie in it.
  have holds : ∀ {cursor}, cursor ≤ zone.limit → zone.Holds cursor := by
    intro cursor within
    exact ⟨by omega, within⟩
  have gains : ∀ inner : Matcher α τ ρ,
      Action.Gains zone 0 (inner.eval order zone.toWindow call) :=
    Matcher.eval_gains loose forward
  cases matcher with
  | star inner =>
      cases loops
      refine ⟨_, rfl, ?_⟩
      intro ctx cursor within
      exact (gains inner).greedy_runs (Nat.le_refl 0) (holds within)
  | plus inner =>
      cases loops
      refine ⟨_, rfl, ?_⟩
      intro ctx cursor within
      apply (gains inner).atLeast_runs _ 1 0 ctx cursor rfl (holds within)
      intro ctx cursor holds'
      exact (gains inner).greedy_runs (Nat.le_refl 1) holds'
  | timesBetween least most inner =>
      cases loops
      refine ⟨_, rfl, ?_⟩
      intro ctx cursor within
      apply (gains inner).atLeast_runs _ least 0 ctx cursor (Nat.zero_add least) (holds within)
      intro ctx cursor holds'
      exact (gains inner).bounded_runs (Nat.le_refl least) holds'
  | upTo inner =>
      cases loops
      refine ⟨_, rfl, ?_⟩
      intro ctx cursor within
      exact Action.upTo_runs (holds within)
  | block opening item closing =>
      cases loops
      refine ⟨_, rfl, ?_⟩
      intro ctx cursor within
      exact (gains item).block_runs (holds within)
  | list opening item separator closing =>
      cases loops
      refine ⟨_, rfl, ?_⟩
      intro ctx cursor within
      exact (gains item).list_runs (gains separator) (holds within)
  | _ => cases loops

end PegForest
