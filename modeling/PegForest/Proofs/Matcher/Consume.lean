import PegForest.Proofs.Action.Respect

/-!
# What a matcher consumes before it calls a rule

A rule may call itself only after it has consumed an atom.  The form of a matcher tells enough about
that: whether it consumes something wherever it matches, and whether it calls rules only at places
after the one where it starts.

A matcher of the second kind does not see what the rules do at the place where it starts.  So for a
grammar of such matchers rule calls do not nest deeper than there are atoms left, and with that depth
nothing is `exhausted`.
-/

set_option autoImplicit false

namespace PegForest

variable {α τ ρ : Type}

namespace Matcher

mutual

/-- Whether a matcher can be seen to consume something wherever it matches. -/
def consumes : Matcher α τ ρ → Bool
  | .one _ | .nonEmpty _ => true
  | .literal atoms => !atoms.isEmpty
  | .seq steps => anyConsumes steps
  | .choice alternatives => allConsume alternatives
  | .plus inner | .store _ inner | .node _ _ inner | .promote inner => inner.consumes
  | _ => false

def anyConsumes : List (Matcher α τ ρ) → Bool
  | [] => false
  | matcher :: rest => matcher.consumes || anyConsumes rest

def allConsume : List (Matcher α τ ρ) → Bool
  | [] => true
  | matcher :: rest => matcher.consumes && allConsume rest

end

mutual

/-- Whether a matcher can be seen to call rules only after it has consumed something. -/
def late : Matcher α τ ρ → Bool
  | .rule _ => false
  | .seq steps => lateSteps steps
  | .seqOpt matchers | .choice matchers => lateAll matchers
  | .nonEmpty inner | .star inner | .plus inner | .opt inner => inner.late
  | .ahead inner | .notAhead inner | .upTo inner | .promote inner => inner.late
  | .times _ inner | .store _ inner => inner.late
  | .timesBetween _ _ inner | .node _ _ inner => inner.late
  | .block opening item closing =>
      opening.late && (opening.consumes || item.late && closing.late)
  | .list opening item separator closing =>
      opening.late && (opening.consumes || item.late && separator.late && closing.late)
  | .one _ | .literal _ | .endOfInput | .backref _ | .skip _ | .failAt _ => true

def lateSteps : List (Matcher α τ ρ) → Bool
  | [] => true
  | step :: rest => step.late && (step.consumes || lateSteps rest)

def lateAll : List (Matcher α τ ρ) → Bool
  | [] => true
  | matcher :: rest => matcher.late && lateAll rest

end

end Matcher

/-! ## What an action consumes -/

namespace Action

variable {zone : Zone α} {stops : Fault → Fault → Prop} {R : Context τ → Context τ → Prop}
  {least least' : Nat} {action first second : Action τ}

/-- The answer does not stop before a place, nor beyond the limit. -/
def Reaches (zone : Zone α) (place : Nat) (answer : Verdict × Context τ) : Prop :=
  ∀ next, answer.1 = .matched next → place ≤ next ∧ next ≤ zone.limit

/-- Wherever the action matches, it has consumed at least so many atoms of the window. -/
def Gains (zone : Zone α) (least : Nat) (action : Action τ) : Prop :=
  ∀ ctx cursor, zone.Holds cursor → Yields (Reaches zone (cursor + least)) (action ctx cursor)

theorem Respects.gains (respects : Respects stops Eq zone action action) : Gains zone 0 action := by
  intro ctx cursor holds
  have concur := respects ctx ctx cursor holds rfl
  intro answer returned next matched
  rw [returned] at concur
  cases concur with
  | ok answers =>
      cases answers with
      | matched forward bounded _ =>
          cases matched
          exact ⟨forward, bounded⟩
      | failed _ _ => cases matched

theorem reaches_failed {place offset : Nat} {ctx : Context τ} :
    Reaches zone place (.failed offset, ctx) := by
  intro next matched
  cases matched

theorem reaches_matched {place next : Nat} {ctx : Context τ} (gained : place ≤ next)
    (bounded : next ≤ zone.limit) : Reaches zone place (.matched next, ctx) := by
  intro next' matched
  cases matched
  exact ⟨gained, bounded⟩

theorem Gains.resume (gains : Gains zone least second) {cursor place next : Nat} {ctx : Context τ}
    (holds : zone.Holds cursor) (forward : cursor ≤ next) (bounded : next ≤ zone.limit)
    (enough : place ≤ next + least) : Yields (Reaches zone place) (second ctx next) := by
  intro answer returned next' matched
  obtain ⟨forward', bounded'⟩ :=
    gains ctx next (holds.later forward bounded) answer returned next' matched
  exact ⟨Nat.le_trans enough forward', bounded'⟩

theorem Gains.andThen (gains : Gains zone least first) (gains' : Gains zone least' second) :
    Gains zone (least + least') (first.andThen second) := by
  intro ctx cursor holds
  refine (gains ctx cursor holds).bind ?_
  rintro ⟨verdict, after⟩ gained
  cases verdict with
  | matched next =>
      obtain ⟨forward, bounded⟩ := gained next rfl
      exact gains'.resume holds (by omega) bounded (by omega)
  | failed offset => exact .ok reaches_failed

theorem Gains.attempt (gains : Gains zone least action) : Gains zone least action.attempt := by
  intro ctx cursor holds
  refine (gains ctx cursor holds).bind ?_
  rintro ⟨verdict, after⟩ gained
  cases verdict with
  | matched next => exact .ok (reaches_matched (gained next rfl).1 (gained next rfl).2)
  | failed offset => exact .bind_any fun rewound => .ok reaches_failed

theorem Gains.firstOf {actions : List (Action τ)} (gains : ∀ action ∈ actions, Gains zone least action)
    (offset : Nat) : Gains zone least (firstOf offset actions) := by
  induction actions generalizing offset with
  | nil =>
      intro ctx cursor _
      exact .ok reaches_failed
  | cons action rest ih =>
      intro ctx cursor holds
      refine ((gains action List.mem_cons_self).attempt ctx cursor holds).bind ?_
      rintro ⟨verdict, after⟩ gained
      cases verdict with
      | matched next => exact .ok (reaches_matched (gained next rfl).1 (gained next rfl).2)
      | failed furthest =>
          exact ih (fun other member => gains other (List.mem_cons_of_mem action member)) _ after
            cursor holds

theorem Gains.nonEmpty (gains : Gains zone 0 action) : Gains zone 1 action.nonEmpty := by
  intro ctx cursor holds
  refine (gains ctx cursor holds).bind ?_
  rintro ⟨verdict, after⟩ gained
  cases verdict with
  | matched next =>
      obtain ⟨forward, bounded⟩ := gained next rfl
      by_cases same : next = cursor
      · simp only [if_pos same]
        exact .bind_any fun rewound => .ok reaches_failed
      · simp only [if_neg same]
        exact .ok (reaches_matched (by omega) bounded)
  | failed offset => exact .ok reaches_failed

theorem Gains.thenIfMoved (gains : Gains zone 1 first) (gains' : Gains zone 0 second) :
    Gains zone 1 (first.thenIfMoved second) := by
  intro ctx cursor holds
  refine (gains ctx cursor holds).bind ?_
  rintro ⟨verdict, after⟩ gained
  cases verdict with
  | matched next =>
      obtain ⟨forward, bounded⟩ := gained next rfl
      have moved : next ≠ cursor := by omega
      simp only [if_neg moved]
      exact gains'.resume holds (by omega) bounded forward
  | failed offset => exact .ok reaches_failed

theorem Gains.store (gains : Gains zone least action) (name : String) :
    Gains zone least (action.store name) := by
  intro ctx cursor holds
  refine (gains ctx cursor holds).bind ?_
  rintro ⟨verdict, after⟩ gained
  cases verdict with
  | matched next =>
      exact .bind_any fun stored => .ok (reaches_matched (gained next rfl).1 (gained next rfl).2)
  | failed offset => exact .ok reaches_failed

theorem Gains.building (gains : Gains zone least action)
    (change : Context τ → Option NodeId → Nat → Nat → Except Fault (Context τ)) :
    Gains zone least (action.building change) := by
  intro ctx cursor holds
  refine (gains.attempt ctx cursor holds).bind ?_
  rintro ⟨verdict, after⟩ gained
  cases verdict with
  | matched next =>
      exact .bind_any fun changed => .ok (reaches_matched (gained next rfl).1 (gained next rfl).2)
  | failed offset => exact .ok reaches_failed

theorem Gains.node (gains : Gains zone least action) (tag : Option τ) (bookmark : Bool) :
    Gains zone least (action.node tag bookmark) :=
  gains.building _

theorem gains_one (test : α → Except Fault Bool) : Gains zone 1 (one zone.toWindow test : Action τ) := by
  intro ctx cursor holds
  unfold one
  cases found : zone.peek? cursor with
  | none => exact .ok reaches_failed
  | some a =>
      apply Yields.bind_any
      intro passed
      cases passed with
      | false => exact .ok reaches_failed
      | true => exact .ok (reaches_matched (Nat.le_refl _) (Reading.lt_limit_of_peek found))

end Action

/-! ## What the form of a matcher tells -/

section Equal

variable {zone : Zone α} {stops : Fault → Fault → Prop}
  (misused : ∀ {fault : Fault}, fault.IsMisuse → stops fault fault) (loose : ¬zone.strict)
include misused loose

theorem Matcher.asks_eq {calls : ρ → Prop} {matcher : Matcher α τ ρ}
    (called : ∀ name, matcher = .rule name → calls name) :
    matcher.Asks (Context.SharesRefs stops (Eq : Context τ → Context τ → Prop)) zone.strict calls :=
  asks_of_shares (Context.sharesRefs_eq misused) (fun _ => loose) called

theorem Matcher.eval_respects_eq [Atom α] {order : Comparator α} {call call' : ρ → Action τ}
    (calls : ∀ name, (call name).Respects stops Eq zone (call' name)) (matcher : Matcher α τ ρ) :
    (matcher.eval order zone.toWindow call).Respects stops Eq zone
      (matcher.eval order zone.toWindow call') := by
  apply Matcher.eval_respects_same (Context.lasting_eq misused)
  intro part _
  exact asks_eq misused loose fun name _ => calls name

end Equal

def Calls.Forward (zone : Zone α) (call : ρ → Action τ) : Prop :=
  ∀ name, (call name).Respects Eq Eq zone (call name)

variable [Atom α] {order : Comparator α} {zone : Zone α} {call : ρ → Action τ}

theorem Matcher.eval_gains (loose : ¬zone.strict) (forward : Calls.Forward zone call)
    (matcher : Matcher α τ ρ) : (matcher.eval order zone.toWindow call).Gains zone 0 :=
  (matcher.eval_respects_eq (fun _ => rfl) loose forward).gains

mutual

theorem Matcher.gains_of_consumes (loose : ¬zone.strict) (forward : Calls.Forward zone call) :
    ∀ matcher : Matcher α τ ρ, matcher.consumes = true →
      (matcher.eval order zone.toWindow call).Gains zone 1
  | .one kind, _ => Action.gains_one (kind.test order)
  | .literal [], consumes => nomatch consumes
  | .literal (expected :: rest), _ => by
      intro ctx cursor holds
      unfold Matcher.eval Action.literal
      cases found : zone.peek? cursor with
      | none => exact .ok Action.reaches_failed
      | some a =>
          by_cases same : order.same a expected = true
          · simp only [if_pos same]
            have gains : Action.Gains zone 0 (.literal order zone.toWindow rest : Action τ) :=
              eval_gains loose forward (.literal rest)
            exact gains.resume holds (Nat.le_succ cursor) (Reading.lt_limit_of_peek found)
              (Nat.le_refl _)
          · simp only [if_neg same]
            exact .ok Action.reaches_failed
  | .seq steps, consumes => gains_of_anyConsumes loose forward steps consumes
  | .choice alternatives, consumes => fun ctx cursor =>
      Action.Gains.firstOf (gains_of_allConsume loose forward alternatives consumes) cursor ctx cursor
  | .nonEmpty inner, _ => (eval_gains loose forward inner).nonEmpty
  | .plus inner, consumes =>
      (gains_of_consumes loose forward inner consumes).thenIfMoved
        (eval_gains loose forward (.star inner))
  | .store name inner, consumes => (gains_of_consumes loose forward inner consumes).store name
  | .node tag bookmark inner, consumes =>
      (gains_of_consumes loose forward inner consumes).node tag bookmark
  | .promote inner, consumes => (gains_of_consumes loose forward inner consumes).building _

theorem Matcher.gains_of_anyConsumes (loose : ¬zone.strict) (forward : Calls.Forward zone call) :
    ∀ steps : List (Matcher α τ ρ), anyConsumes steps = true →
      (Action.sequence (evalAll order zone.toWindow call steps)).Gains zone 1
  | [], consumes => nomatch consumes
  | step :: rest, consumes => by
      rcases Bool.or_eq_true_iff.mp consumes with here | later
      · exact (gains_of_consumes loose forward step here).andThen
          (eval_gains loose forward (.seq rest))
      · exact (eval_gains loose forward step).andThen
          (gains_of_anyConsumes loose forward rest later)

theorem Matcher.gains_of_allConsume (loose : ¬zone.strict) (forward : Calls.Forward zone call) :
    ∀ matchers : List (Matcher α τ ρ), allConsume matchers = true →
      ∀ action ∈ evalAll order zone.toWindow call matchers, action.Gains zone 1
  | [], _ => by simp [evalAll]
  | matcher :: rest, consumes => by
      obtain ⟨here, later⟩ := Bool.and_eq_true_iff.mp consumes
      intro action member
      rcases List.mem_cons.mp member with rfl | deeper
      · exact gains_of_consumes loose forward matcher here
      · exact gains_of_allConsume loose forward rest later action deeper

end

/-! ## Late calls -/

def Zone.later (zone : Zone α) : Zone α :=
  { zone with low := zone.low + 1 }

/-- Two families of rules that answer alike at the later places of a zone; at its first place they
may do anything, as long as the answers of one of them lie ahead. -/
structure Deferred (stops : Fault → Fault → Prop) (zone : Zone α) (call call' : ρ → Action τ) :
    Prop where
  misused : ∀ {fault : Fault}, fault.IsMisuse → stops fault fault
  loose : ¬zone.strict
  forward : Calls.Forward zone call
  later : ∀ name, (call name).Respects stops Eq zone.later (call' name)

section Late

variable {stops : Fault → Fault → Prop} {R : Context τ → Context τ → Prop}
  {first second first' second' : Action τ}

omit [Atom α] in
theorem Action.RespectsAhead.andThenLater (respects : RespectsAhead 0 stops R zone first first')
    (gains : Gains zone 1 first) (respects' : RespectsAhead 0 stops R zone.later second second') :
    RespectsAhead 0 stops R zone (first.andThen second) (first'.andThen second') := by
  intro ctx ctx' cursor holds related
  apply ((respects ctx ctx' cursor holds related).and_left (gains ctx cursor holds)).bind
  rintro _ _ ⟨answers, reaches⟩
  cases answers with
  | matched forward bounded related' =>
      have later : zone.later.Holds _ :=
        ⟨Nat.le_trans (Nat.succ_le_succ holds.1) (reaches _ rfl).1, bounded⟩
      apply (respects' _ _ _ later related').mono
      intro _ _ answers'
      cases answers' with
      | matched forward' bounded' related'' =>
          exact .matched (Nat.le_trans forward forward') bounded' related''
      | failed falls related'' =>
          have falls' : zone.Fails _ _ := falls
          exact .failed (falls'.earlier forward) related''
  | failed falls related' => exact .ok (.failed falls related')

variable {call' : ρ → Action τ}

omit [Atom α] in
theorem Deferred.lasting (deferred : Deferred stops zone call call') :
    Context.LastingAhead 0 stops (Eq : Context τ → Context τ → Prop) :=
  (Context.lasting_eq deferred.misused).ahead

omit [Atom α] in
theorem Deferred.shares (deferred : Deferred stops zone call call') :
    Context.SharesAhead 0 stops (Eq : Context τ → Context τ → Prop) zone id
      (zone.toWindow.map id) :=
  (Context.sharesRefs_eq deferred.misused).ahead deferred.misused (slice_map zone.source)

theorem Matcher.eval_leaf (deferred : Deferred stops zone call call') {matcher : Matcher α τ ρ}
    (leaf : matcher.parts = []) (plain : ∀ name, matcher ≠ .rule name) :
    (matcher.eval order zone.toWindow call).RespectsAhead 0 stops Eq zone
      (matcher.eval order zone.toWindow call') := by
  apply Action.respects_iff.mp
  apply Matcher.eval_respects_same (Context.lasting_eq deferred.misused)
  intro part partOf
  cases partOf with
  | self => exact asks_eq deferred.misused deferred.loose fun name same => absurd same (plain name)
  | deep member _ =>
      rw [leaf] at member
      cases member

theorem Matcher.eval_later (deferred : Deferred stops zone call call') (matcher : Matcher α τ ρ) :
    (matcher.eval order zone.toWindow call).RespectsAhead 0 stops Eq zone.later
      (matcher.eval order zone.toWindow call') := by
  have loose : ¬zone.later.strict := deferred.loose
  exact Action.respects_iff.mp (matcher.eval_respects_eq deferred.misused loose deferred.later)

mutual

theorem Matcher.eval_late (deferred : Deferred stops zone call call') :
    ∀ matcher : Matcher α τ ρ, matcher.late = true →
      (matcher.eval order zone.toWindow call).RespectsAhead 0 stops Eq zone
        (matcher.eval order zone.toWindow call')
  | .seq steps, late => sequence_late deferred steps late
  | .seqOpt steps, late => .sequenceOpt deferred.lasting (evalAll_late deferred steps late)
  | .choice alternatives, late => .choice deferred.lasting (evalAll_late deferred alternatives late)
  | .nonEmpty inner, late => (eval_late deferred inner late).nonEmpty deferred.lasting
  | .star inner, late => (eval_late deferred inner late).repeated deferred.lasting rfl
  | .plus inner, late =>
      (eval_late deferred inner late).thenIfMoved
        ((eval_late deferred inner late).repeated deferred.lasting rfl)
  | .opt inner, late => (eval_late deferred inner late).optional deferred.lasting
  | .times count inner, late => (eval_late deferred inner late).times count
  | .timesBetween least most inner, late =>
      (eval_late deferred inner late).atLeast
        ((eval_late deferred inner late).greedy deferred.lasting Action.respectsAhead_succeed
          (most - least)) least
  | .ahead inner, late => (eval_late deferred inner late).lookAhead deferred.lasting
  | .notAhead inner, late => (eval_late deferred inner late).notAhead deferred.lasting
  | .upTo inner, late => (eval_late deferred inner late).upTo deferred.lasting rfl
  | .store name inner, late => (eval_late deferred inner late).store deferred.shares name
  | .node tag bookmark inner, late =>
      (eval_late deferred inner late).node deferred.lasting tag bookmark
  | .promote inner, late => (eval_late deferred inner late).promote deferred.lasting
  | .block opening item closing, late => by
      obtain ⟨here, deeper⟩ := Bool.and_eq_true_iff.mp late
      have opens := eval_late deferred opening here
      -- Behind an opening bracket that consumes something any rule may be called.
      rcases Bool.or_eq_true_iff.mp deeper with consumes | later
      · apply opens.andThenLater (gains_of_consumes deferred.loose deferred.forward opening consumes)
        exact (eval_later deferred item).block deferred.lasting (eval_later deferred closing) rfl
      · obtain ⟨items, closes⟩ := Bool.and_eq_true_iff.mp later
        apply opens.andThen
        exact (eval_late deferred item items).block deferred.lasting
          (eval_late deferred closing closes) rfl
  | .list opening item separator closing, late => by
      obtain ⟨here, deeper⟩ := Bool.and_eq_true_iff.mp late
      have opens := eval_late deferred opening here
      rcases Bool.or_eq_true_iff.mp deeper with consumes | later
      · apply opens.andThenLater (gains_of_consumes deferred.loose deferred.forward opening consumes)
        exact (eval_later deferred item).list deferred.lasting (eval_later deferred separator)
          (eval_later deferred closing) rfl
      · obtain ⟨both, closes⟩ := Bool.and_eq_true_iff.mp later
        obtain ⟨items, separates⟩ := Bool.and_eq_true_iff.mp both
        apply opens.andThen
        exact (eval_late deferred item items).list deferred.lasting
          (eval_late deferred separator separates) (eval_late deferred closing closes) rfl
  | .one _, _ | .literal _, _ | .endOfInput, _ | .backref _, _ | .skip _, _ | .failAt _, _ =>
      eval_leaf deferred rfl nofun

theorem Matcher.sequence_late (deferred : Deferred stops zone call call') :
    ∀ steps : List (Matcher α τ ρ), lateSteps steps = true →
      (Action.sequence (evalAll order zone.toWindow call steps)).RespectsAhead 0 stops Eq zone
        (Action.sequence (evalAll order zone.toWindow call' steps))
  | [], _ => Action.respectsAhead_succeed
  | step :: rest, late => by
      obtain ⟨here, deeper⟩ := Bool.and_eq_true_iff.mp late
      have respects := eval_late deferred step here
      rcases Bool.or_eq_true_iff.mp deeper with consumes | later
      · apply respects.andThenLater
          (gains_of_consumes deferred.loose deferred.forward step consumes)
        exact eval_later deferred (.seq rest)
      · exact respects.andThen (sequence_late deferred rest later)

theorem Matcher.evalAll_late (deferred : Deferred stops zone call call') :
    ∀ matchers : List (Matcher α τ ρ), lateAll matchers = true →
      List.Forall₂ (Action.RespectsAhead 0 stops Eq zone) (evalAll order zone.toWindow call matchers)
        (evalAll order zone.toWindow call' matchers)
  | [], _ => .nil
  | matcher :: rest, late => by
      obtain ⟨here, deeper⟩ := Bool.and_eq_true_iff.mp late
      exact .cons (eval_late deferred matcher here) (evalAll_late deferred rest deeper)

end

/-- A matcher that calls rules late does not see what they do at the first place of a zone. -/
theorem Matcher.eval_respects_late (deferred : Deferred stops zone call call')
    (matcher : Matcher α τ ρ) (late : matcher.late = true) :
    (matcher.eval order zone.toWindow call).Respects stops Eq zone
      (matcher.eval order zone.toWindow call') :=
  Action.respects_iff.mpr (eval_late deferred matcher late)

/-! ## How deep rule calls nest -/

variable {grammar : Grammar α τ ρ}

theorem Grammar.call_forward (loose : ¬zone.strict) (depth : Nat) :
    Calls.Forward zone (grammar.call order zone.toWindow depth) := by
  intro name
  have misused : ∀ {fault : Fault}, fault.IsMisuse → fault = fault := fun _ => rfl
  apply Grammar.run_respects_same (Context.lasting_eq misused) rfl depth (.rule name)
  intro inner _
  exact Matcher.asks_eq misused loose fun _ _ => trivial

theorem Grammar.call_respects_of_late (late : ∀ name, (grammar name).late = true)
    (misused : ∀ {fault : Fault}, fault.IsMisuse → stops fault fault) (depth : Nat) :
    ∀ (deeper : Nat) (zone : Zone α), ¬zone.strict → zone.limit < zone.low + depth →
      depth ≤ deeper → ∀ name, (grammar.call order zone.toWindow depth name).Respects stops Eq zone
        (grammar.call order zone.toWindow deeper name) := by
  induction depth with
  | zero =>
      intro deeper zone loose enough _ name ctx ctx' cursor holds
      -- At depth zero no place is left between the two bounds.
      have outside : zone.limit < cursor := Nat.lt_of_lt_of_le enough holds.1
      exact absurd holds.2 (Nat.not_le_of_lt outside)
  | succ depth ih =>
      intro deeper zone loose enough further name
      cases deeper with
      | zero => cases further
      | succ deeper =>
          -- A rule calls others only at a later place, and one level less is enough from there on.
          apply Matcher.eval_respects_late _ (grammar name) (late name)
          refine ⟨misused, loose, Grammar.call_forward loose depth, ?_⟩
          apply ih deeper zone.later loose
          · have enough' : zone.limit < zone.low + 1 + depth := by omega
            exact enough'
          · exact Nat.le_of_succ_le_succ further

end Late

end PegForest
