import PegForest.Proofs.Calculator.Parse
import PegForest.Proofs.Json.Accept
import PegForest.Proofs.NestedList.RoundTrip
import PegForest.Proofs.Session.Replay

/-!
# A context that was reset is as good as a new one

A reset keeps the slabs of the arena and nothing else.  Since slabs do not show, whatever is done
after the reset goes as on a new context.  A parser of a whole text resets its context first, and so
its answers do not depend on the texts before.  A calculator also keeps the tokens of the last text
that had any; it reads them only when the text at hand has tokens as well.
-/

set_option autoImplicit false

namespace PegForest

variable {τ : Type}

namespace Session

/-! ## Reading forests with the same nodes -/

structure SameForest (forest other : Forest τ) : Prop extends SameNodes forest other where
  created : forest.created = other.created
  recycled : forest.recycled = other.recycled

/-- Two contexts that differ at most in their slabs, and that have reported the same since their
logs were these, apart from slabs. -/
structure SameContext (base base' : Array Event) (ctx ctx' : Context τ) : Prop where
  refs : ctx.refs = ctx'.refs
  forest : Option.Rel SameForest ctx.forest ctx'.forest
  checkpoint : ctx.checkpoint = ctx'.checkpoint
  log : Event.AlikeSince base base' ctx.log ctx'.log

theorem sameForest_of_displaced {forest other : Forest τ} (displaced : forest.Displaced 0 other) :
    SameForest forest other where
  head := displaced.head
  tail := displaced.tail
  size := displaced.size_eq
  liveBytes := fun slot => congrArg (· * slot) displaced.size_eq
  node := fun id => (displaced.node id).eq fun _ _ same => same
  created := displaced.created
  recycled := displaced.recycled

theorem sameContext_of_displaced {base base' : Array Event} {ctx ctx' : Context τ}
    (displaced : Context.Displaced 0 base base' ctx ctx') : SameContext base base' ctx ctx' where
  refs := by
    rw [displaced.refs, Backrefs.displace_zero]
    exact Option.map_id'
  forest := by
    obtain ⟨refs, forest, log⟩ := ctx
    obtain ⟨refs', forest', log'⟩ := ctx'
    cases displaced.forest with
    | none => exact .none
    | some forests => exact .some (sameForest_of_displaced forests)
  checkpoint := displaced.checkpoint_eq
  log := displaced.log

theorem sameNodes_of_displaced {base base' : Array Event} {ctx ctx' : Context τ}
    (displaced : Context.Displaced 0 base base' ctx ctx') : SameNodes ctx.forestD ctx'.forestD := by
  obtain ⟨refs, forest, log⟩ := ctx
  obtain ⟨refs', forest', log'⟩ := ctx'
  cases displaced.forest with
  | none => exact ⟨rfl, rfl, rfl, fun _ => rfl, fun _ => rfl⟩
  | some forests => exact (sameForest_of_displaced forests).toSameNodes

namespace SameNodes

variable {forest other : Forest τ} (same : SameNodes forest other)
include same

theorem siblingsFrom (steps : Nat) (first : Option NodeId) :
    forest.siblingsFrom steps first = other.siblingsFrom steps first := by
  induction steps generalizing first with
  | zero => cases first <;> rfl
  | succ steps ih =>
      cases first with
      | none => rfl
      | some id => simp only [Forest.siblingsFrom, same.node, ih]

theorem roots : forest.roots = other.roots := by
  simp only [Forest.roots, same.size, same.head, same.siblingsFrom]

theorem children (id : NodeId) : forest.children id = other.children id := by
  simp only [Forest.children, same.node, same.size, same.siblingsFrom]

theorem text {α : Type} (id : NodeId) (source : Array α) :
    forest.text id source = other.text id source := by
  simp only [Forest.text, same.node]

end SameNodes

end Session

open Session

theorem NestedList.write_congr {forest other : Forest NestedList.Tag} (same : SameNodes forest other)
    (source : Array UInt8) (depth : Nat) :
    write forest source depth = write other source depth := by
  induction depth with
  | zero => rfl
  | succ depth ih =>
      funext id
      simp only [write, same.node, same.text, same.children, ih]

theorem NestedList.serialize_congr {forest other : Forest NestedList.Tag}
    (same : SameNodes forest other) (source : Array UInt8) :
    serialize forest source = serialize other source := by
  simp only [serialize, same.roots, same.size, write_congr same]

theorem Json.decode_congr {forest other : Forest Json.Tag} (same : SameNodes forest other)
    (source : Array UInt8) (id : NodeId) : decode forest source id = decode other source id := by
  have decodes : ∀ depth, decodeAt forest source depth = decodeAt other source depth := by
    intro depth
    induction depth with
    | zero => rfl
    | succ depth ih =>
        funext id
        have member : decodeMember forest source (decodeAt other source depth) =
            decodeMember other source (decodeAt other source depth) := by
          funext id
          simp only [decodeMember, same.children, same.text]
        simp only [decodeAt, same.node, same.text, same.children, ih, member]
  simp only [decode, same.size, decodes]

namespace Calculator

theorem tokensOf_congr {forest other : Forest TokenKind} (same : SameNodes forest other) :
    tokensOf forest = tokensOf other := by
  have token : tokenOf forest = tokenOf other := by
    funext id
    simp only [tokenOf, same.node]
  simp only [tokensOf, same.roots, token]

theorem writeNode_congr {forest other : Forest Tag} (same : SameNodes forest other)
    (tokens : Array Token) (source : Array UInt8) (depth : Nat) :
    writeNode forest tokens source depth = writeNode other tokens source depth := by
  induction depth with
  | zero => rfl
  | succ depth ih =>
      funext id
      simp only [writeNode, same.node, same.children, ih]

theorem evalNode_congr {forest other : Forest Tag} (same : SameNodes forest other)
    (tokens : Array Token) (source : Array UInt8) (bindings : List (String × Int)) (depth : Nat) :
    evalNode forest tokens source bindings depth = evalNode other tokens source bindings depth := by
  induction depth with
  | zero => rfl
  | succ depth ih =>
      funext id
      simp only [evalNode, same.node, same.children, ih]

end Calculator

namespace Calculator

/-! ## Calculators in use -/

variable {state state' after : Calculator} {source : String}

/-- Two calculators whose contexts hold the same once they are reset. -/
structure Interchangeable (state state' : Calculator) : Prop where
  lexer : Context.Displaced 0 state.lexer.reset.log state'.lexer.reset.log state.lexer.reset
    state'.lexer.reset
  parser : Context.Displaced 0 state.parser.reset.log state'.parser.reset.log state.parser.reset
    state'.parser.reset

theorem Reached.interchangeable (reached : Reached state) (reached' : Reached state') :
    Interchangeable state state' := by
  obtain ⟨refs, trees, lexing⟩ := reached.tracks_lexer
  obtain ⟨refs', trees', lexing'⟩ := reached'.tracks_lexer
  obtain ⟨stored, built, parsing⟩ := reached.tracks
  obtain ⟨stored', built', parsing'⟩ := reached'.tracks
  exact ⟨(blank_reset lexing).displaced (blank_reset lexing'),
    (blank_reset parsing).displaced (blank_reset parsing')⟩

/-- Both have split the source alike, have kept their parsers, and hold the same tokens and kinds if
that succeeded. -/
structure SameTokens (state state' : Calculator)
    (answer answer' : Except ParseError (Array Token) × Calculator) : Prop where
  alike : answer.1 = answer'.1
  parser : answer.2.parser = state.parser
  parser' : answer'.2.parser = state'.parser
  kept : ∀ tokens, answer.1 = .ok tokens →
    answer.2.tokens = answer'.2.tokens ∧ answer.2.kinds = answer'.2.kinds

/-- Both have parsed alike, and after a success both hold the same tokens and the same tree. -/
structure SameParse (answer answer' : Except ParseError Unit × Calculator) : Prop where
  alike : answer.1 = answer'.1
  tokens : answer.1 = .ok () → answer.2.tokens = answer'.2.tokens
  forest : answer.1 = .ok () → SameNodes answer.2.parser.forestD answer'.2.parser.forestD

theorem Interchangeable.tokenize (same : Interchangeable state state') (source : String) :
    Agree (SameTokens state state') (state.tokenize source) (state'.tokenize source) := by
  apply (run_parser_alike tokenParser tokenTask Text.byteLiteral (Text.Utf8.encode source)
    same.lexer).bind
  rintro ⟨lexing, lexer⟩ ⟨_, lexer'⟩ - ⟨rfl, displaced⟩
  cases lexing with
  | error error => exact .ok ⟨rfl, rfl, rfl, nofun⟩
  | ok consumed =>
      dsimp only
      rw [tokensOf_congr (sameNodes_of_displaced displaced)]
      cases tokensOf lexer'.forestD with
      | error fault => exact .error fault
      | ok tokens =>
          exact .ok ⟨rfl, rfl, rfl, fun _ _ => ⟨rfl, rfl⟩⟩

theorem Interchangeable.parse (same : Interchangeable state state') (source : String) :
    Agree SameParse (state.parse source) (state'.parse source) := by
  apply (same.tokenize source).bind
  rintro ⟨lexing, lexed⟩ ⟨_, lexed'⟩ - ⟨rfl, kept, kept', held⟩
  cases lexing with
  | error error => exact .ok ⟨rfl, nofun, nofun⟩
  | ok tokens =>
      obtain ⟨sameTokens, sameKinds⟩ := held tokens rfl
      have emptied := same.parser
      rw [← kept, ← kept'] at emptied
      dsimp only
      rw [sameTokens, sameKinds]
      apply (run_parser_alike expressionParser (expressionTask lexed'.kinds)
        Atom.describe lexed'.kinds emptied).bind
      rintro ⟨parsed, parser⟩ ⟨_, parser'⟩ - ⟨rfl, displaced⟩
      cases parsed with
      | error error => exact .ok ⟨rfl, nofun, nofun⟩
      | ok consumed =>
          exact .ok ⟨rfl, fun _ => rfl, fun _ => sameNodes_of_displaced displaced⟩

theorem Interchangeable.parseThen (same : Interchangeable state state') (source : String)
    {β γ : Type} {read : Calculator → NodeId → Except Fault β} (finish : β → γ) (nothing : γ)
    (reads : ∀ state state' : Calculator, state.tokens = state'.tokens →
      SameNodes state.parser.forestD state'.parser.forestD → read state = read state') :
    Agree (fun answer answer' => answer.1 = answer'.1)
      (state.parseThen source read finish nothing)
      (state'.parseThen source read finish nothing) := by
  apply (same.parse source).bind
  rintro ⟨parsed, after⟩ ⟨_, after'⟩ - ⟨rfl, tokens, forest⟩
  cases parsed with
  | error error => exact .ok rfl
  | ok _ =>
      have nodes := forest rfl
      dsimp only
      rw [nodes.head, reads after after' (tokens rfl) nodes]
      cases after'.parser.forestD.head with
      | none => exact .ok rfl
      | some root =>
          dsimp only
          cases read after' root with
          | error fault => exact .error fault
          | ok found => exact .ok rfl

theorem Interchangeable.render (same : Interchangeable state state') (source : String) :
    Agree (fun answer answer' => answer.1 = answer'.1) (state.render source)
      (state'.render source) := by
  rw [render_eq, render_eq]
  apply same.parseThen source String.ofList ""
  intro after after' tokens nodes
  rw [tokens, nodes.size, writeNode_congr nodes]

theorem Interchangeable.evaluate (same : Interchangeable state state') (source : String)
    (bindings : List (String × Int)) :
    Agree (fun answer answer' => answer.1 = answer'.1) (state.evaluate source bindings)
      (state'.evaluate source bindings) := by
  rw [evaluate_eq, evaluate_eq]
  apply same.parseThen source id none
  intro after after' tokens nodes
  rw [tokens, nodes.size, evalNode_congr nodes]

end Calculator

/-! ## Reuse -/

namespace Session

def SameOutcome {β : Type} (base base' : Array Event) (answer answer' : β × Context τ) : Prop :=
  answer.1 = answer'.1 ∧ SameContext base base' answer.2 answer'.2

theorem Alike.sameOutcome {β : Type} {base base' : Array Event} {answer answer' : β × Context τ}
    (alike : Alike base base' answer answer') : SameOutcome base base' answer answer' :=
  ⟨alike.1, sameContext_of_displaced alike.2⟩

def SameList (base base' : Array Event)
    (answer answer' : Except ParseError Nat × Context NestedList.Tag) : Prop :=
  SameOutcome base base' answer answer' ∧
    ∀ source, NestedList.serialize answer.2.forestD source =
      NestedList.serialize answer'.2.forestD source

section Blank

variable {builds : Bool}

theorem parse_list_alike {ctx new : Context NestedList.Tag} (blank : Blank builds ctx.reset)
    (blank' : Blank builds new.reset) (text : String) :
    Agree (SameList ctx.reset.log new.reset.log) (NestedList.parse ctx text)
      (NestedList.parse new text) := by
  apply (run_parser_alike NestedList.parser (NestedList.listTask (Text.Utf8.encode text))
    Text.byteLiteral (Text.Utf8.encode text) (blank.displaced blank')).mono
  intro answer answer' alike
  refine ⟨alike.sameOutcome, ?_⟩
  intro source
  exact NestedList.serialize_congr (sameNodes_of_displaced alike.2) source

theorem parse_json_alike {ctx new : Context Json.Tag} (blank : Blank builds ctx.reset)
    (blank' : Blank builds new.reset) (text : String) :
    Agree (SameOutcome ctx.reset.log new.reset.log) (Json.parse ctx text) (Json.parse new text) := by
  apply (run_parser_alike Json.parser (Json.valueTask (Text.Utf8.encode text))
    Text.byteLiteral (Text.Utf8.encode text) (blank.displaced blank')).bind
  rintro ⟨answer, after⟩ ⟨_, after'⟩ - ⟨rfl, displaced⟩
  have same := sameContext_of_displaced displaced
  cases answer with
  | error error => exact .ok ⟨rfl, same⟩
  | ok consumed =>
      have nodes := sameNodes_of_displaced displaced
      dsimp only
      rw [nodes.head]
      cases after'.forestD.head with
      | none => exact .ok ⟨rfl, same⟩
      | some root =>
          dsimp only
          rw [Json.decode_congr nodes]
          cases Json.decode after'.forestD (Text.Utf8.encode text) root with
          | error fault => exact .error fault
          | ok value => exact .ok ⟨rfl, same⟩

end Blank

/-- After a reset every session goes on as it would on a new context, with slabs of the same or of
any other capacity.  Lists and documents are read on a context in use as on a new one, and a
calculator in use answers as a new one does. -/
theorem emptied_context_is_as_new :
    (∀ {α τ : Type} [Atom α] {builds : Bool} {start ctx new : Context τ} {steps : List (Step α τ)},
      Fresh builds start → run steps start = .ok ctx → Fresh builds new →
      ∀ later : List (Step α τ), Agree (SameOutcome ctx.reset.log new.log)
        (replies later ctx.reset) (replies later new)) ∧
    (∀ {α : Type} [Atom α] {start ctx new : Context NestedList.Tag}
      {steps : List (Step α NestedList.Tag)},
      Fresh true start → run steps start = .ok ctx → Fresh true new →
      ∀ text : String, Agree (SameList ctx.reset.log new.reset.log) (NestedList.parse ctx text)
        (NestedList.parse new text)) ∧
    (∀ {α : Type} [Atom α] {start ctx new : Context Json.Tag} {steps : List (Step α Json.Tag)},
      Fresh true start → run steps start = .ok ctx → Fresh true new →
      ∀ text : String, Agree (SameOutcome ctx.reset.log new.reset.log) (Json.parse ctx text)
        (Json.parse new text)) ∧
    ∀ {state : Calculator}, Calculator.Reached state → ∀ source : String,
      Agree (fun answer answer' => answer.1 = answer'.1) (state.tokenize source)
        (Calculator.fresh.tokenize source) ∧
      Agree (fun answer answer' => answer.1 = answer'.1) (state.parse source)
        (Calculator.fresh.parse source) ∧
      Agree (fun answer answer' => answer.1 = answer'.1) (state.render source)
        (Calculator.fresh.render source) ∧
      ∀ bindings : List (String × Int),
        Agree (fun answer answer' => answer.1 = answer'.1) (state.evaluate source bindings)
          (Calculator.fresh.evaluate source bindings) := by
  refine ⟨?_, ?_, ?_, ?_⟩
  · intro α τ _ builds start ctx new steps fresh ran fresh' later
    obtain ⟨refs, trees, tracks⟩ := tracks_run ran fresh.tracks
    apply (replies_alike later ((blank_reset tracks).displaced fresh'.blank)).mono
    intro answer answer' alike
    exact alike.sameOutcome
  · intro α _ start ctx new steps fresh ran fresh' text
    obtain ⟨refs, trees, tracks⟩ := tracks_run ran fresh.tracks
    exact parse_list_alike (blank_reset tracks) (blank_reset fresh'.tracks) text
  · intro α _ start ctx new steps fresh ran fresh' text
    obtain ⟨refs, trees, tracks⟩ := tracks_run ran fresh.tracks
    exact parse_json_alike (blank_reset tracks) (blank_reset fresh'.tracks) text
  · intro state reached source
    -- A calculator in use differs from a new one only in what every request resets first.
    have same := reached.interchangeable .fresh
    refine ⟨?_, ?_, same.render source, same.evaluate source⟩
    · exact (same.tokenize source).mono fun _ _ kept => kept.alike
    · exact (same.parse source).mono fun _ _ parsed => parsed.alike

/-- Contexts with nodes left over from abandoned matches, and a calculator that has refused a
source. -/
theorem emptied_context_is_as_new_abandoned :
    (∃ start ctx new : Context Nat, Fresh true start ∧
      run [.matching abandoned, .storeRef "n" ⟨0, 1⟩] start = .ok ctx ∧ Fresh true new ∧
      Agree (SameOutcome ctx.reset.log new.log)
        (replies [.matching abandoned, .rewind ⟨none, 0⟩, .matching adopting] ctx.reset)
        (replies [.matching abandoned, .rewind ⟨none, 0⟩, .matching adopting] new)) ∧
    (∃ start ctx new : Context NestedList.Tag, Fresh true start ∧
      run [NestedList.earlier] start = .ok ctx ∧ Fresh true new ∧
      Agree (SameList ctx.reset.log new.reset.log) (NestedList.parse ctx "(ab,)")
        (NestedList.parse new "(ab,)")) ∧
    (∃ start ctx new : Context Json.Tag, Fresh true start ∧ run [Json.unclosed] start = .ok ctx ∧
      Fresh true new ∧
      Agree (SameOutcome ctx.reset.log new.reset.log) (Json.parse ctx "[1]")
        (Json.parse new "[1]")) ∧
    ∃ state, Calculator.Reached state ∧ (state.evaluate "1 + 2" []).toBool = true ∧
      Agree (fun answer answer' => answer.1 = answer'.1) (state.evaluate "1 + 2" [])
        (Calculator.fresh.evaluate "1 + 2" []) := by
  obtain ⟨sessions, lists, documents, calculators⟩ := emptied_context_is_as_new
  refine ⟨?_, ?_, ?_, ?_⟩
  · have returns : (run [.matching abandoned, .storeRef "n" ⟨0, 1⟩] smallTree).toBool = true := by
      decide +kernel
    obtain ⟨ctx, ran⟩ := Fault.exists_of_toBool returns
    exact ⟨_, ctx, _, fresh_smallTree, ran, fresh_smallTree,
      sessions fresh_smallTree ran fresh_smallTree _⟩
  · obtain ⟨ctx, ran⟩ := NestedList.earlier_returns
    exact ⟨_, ctx, _, fresh_smallTree, ran, fresh_smallTree,
      lists fresh_smallTree ran fresh_smallTree _⟩
  · obtain ⟨ctx, ran⟩ := Json.unclosed_returns
    exact ⟨_, ctx, _, fresh_smallTree, ran, fresh_smallTree,
      documents fresh_smallTree ran fresh_smallTree _⟩
  · have returns : (Calculator.fresh.parse "(1" >>= fun refused =>
        refused.2.evaluate "1 + 2" []).toBool = true := by decide +kernel
    obtain ⟨answer, both⟩ := Fault.exists_of_toBool returns
    obtain ⟨⟨refused, state⟩, ran, evaluated⟩ := Fault.bind_eq_ok.mp both
    have reached : Calculator.Reached state := .parse .fresh ran
    obtain ⟨-, -, -, evaluates⟩ := calculators reached "1 + 2"
    have answered : (state.evaluate "1 + 2" []).toBool = true := by
      rw [evaluated]
      rfl
    exact ⟨state, reached, answered, evaluates []⟩

end Session

end PegForest
