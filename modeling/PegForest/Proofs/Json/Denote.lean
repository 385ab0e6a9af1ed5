import PegForest.Proofs.Json.Accept
import PegForest.Proofs.Json.Growth

/-!
# The value of a document

On the context of every session, parsing the text of a document returns what the document denotes.
The context then holds one tree, which shows this value with a node for each value, each member and
each key of the document, so decoding it never falls back on a default.  And whatever the text is,
it is never refused as an empty document.
-/

set_option autoImplicit false

namespace PegForest.Json

variable {ctx : Context Tag} {refs : List Backref} {trees : List (MarkedTree Tag)}

theorem reading_document {text : String} (document : Document)
    (spelled : document.text = text.toList) {input : Array UInt8}
    (encoded : Text.Utf8.encode text = input) :
    ∃ tree stored,
      (valueTask input).reading ⟨input, input.size⟩ [] 0 =
        .ok (.matched input.size [tree] stored) ∧
      tree.stop ≤ input.size ∧ Shows input tree document.meaning ∧
      document.value.Pictured input [tree] := by
  have place : Before input 0 (document.text ++ []) := by
    rw [← encoded, spelled, List.append_nil]
    exact before_text text
  have short : (document.text ++ []).length < input.size + 1 := Nat.lt_succ_of_le place.length_le
  have grows : (valueAt input (input.size + 1)).Grows input document.text []
      (document.value.Pictured input) :=
    document.value.grows document.blank document.blank' (Scanner.next_nil _) short
  obtain ⟨next, trees, stored, found, later, pictured⟩ := grows [] 0 place
  -- Nothing is left behind the document.
  have atEnd : next = input.size := later.nil_iff.mp rfl
  subst atEnd
  have shows : ShowsAll input trees [document.meaning] := pictured.shows
  cases shows with
  | @cons tree _ _ _ here nothing =>
      cases nothing
      have advance := grammar.advances_call (input.size + 1) .value [] 0 _ found
      exact ⟨tree, stored, found, (advance.covers.inside tree List.mem_cons_self).2, here, pictured⟩

theorem parse_of_matched (tracks : ctx.Tracks refs trees true) {text : String} {input : Array UInt8}
    (encoded : Text.Utf8.encode text = input) {next : Nat} {tree : MarkedTree Tag}
    {rest : List (MarkedTree Tag)} {stored : List Backref}
    (read : (valueTask input).reading ⟨input, input.size⟩ [] 0 =
      .ok (.matched next (tree :: rest) stored)) (inside : tree.stop ≤ input.size) :
    ∃ ctx', ctx'.Tracks stored (tree :: rest) true ∧
      parse ctx text = .ok (if next < input.size then .error (.trailing ⟨next, input.size⟩)
        else .ok (valueOf input tree), ctx') := by
  have full : parser.full = true := rfl
  have emptied : parser.reset = true := rfl
  obtain ⟨ctx', tracks', ran⟩ := Session.run_of_matched full emptied tracks read Text.byteLiteral
  obtain ⟨root, head, decoded⟩ := decode_of_tracks tracks' inside
  rw [valueTask_onSpan] at ran
  refine ⟨ctx', tracks', ?_⟩
  by_cases more : next < input.size
  · simp only [parse, encoded, ran, Fault.ok_bind, if_pos more, Fault.pure_eq_ok]
  · simp only [parse, encoded, ran, Fault.ok_bind, if_neg more, head, decoded, Fault.pure_eq_ok]

theorem parse_of_document (tracks : ctx.Tracks refs trees true) {text : String}
    (document : Document) (spelled : document.text = text.toList) :
    ∃ ctx' tree, parse ctx text = .ok (.ok document.meaning, ctx') ∧
      ctx'.forestD.Represents [tree] ∧ Shows (Text.Utf8.encode text) tree document.meaning ∧
      ctx'.forestD.size = document.value.values + document.value.members +
        document.value.keys.length := by
  obtain ⟨tree, stored, read, inside, shows, pictured⟩ := reading_document document spelled rfl
  obtain ⟨ctx', tracks', parsed⟩ := parse_of_matched tracks rfl read inside
  rw [if_neg (Nat.lt_irrefl _), shows.valueOf_eq] at parsed
  have represents := tracks'.represents
  exact ⟨ctx', tree, parsed, represents, shows, represents.size_eq.trans pictured.size⟩

def emptyDocument : ParseError :=
  .unexpected ⟨0, 0⟩ parser.nonterminal "empty document"

theorem unexpected_ne (input : Array UInt8) (offset : Nat) :
    parser.unexpected Text.byteLiteral input offset ≠ emptyDocument := by
  unfold Parser.unexpected
  split
  · -- The range of an unexpected byte is not empty.
    intro same
    injection same with range
    injection range with _ stop
    cases stop
  · intro same
    injection same with _ _ detail
    revert detail
    decide

/-- A match always builds a tree, so that a text is refused for another reason. -/
theorem parse_not_empty (tracks : ctx.Tracks refs trees true) (text : String) :
    ∃ answer ctx', parse ctx text = .ok (answer, ctx') ∧ answer ≠ .error emptyDocument := by
  obtain ⟨next, tree, rest, stored, read, inside, -⟩ | ⟨offset, read, -⟩ := reading_text text [] rfl
  · obtain ⟨ctx', -, parsed⟩ := parse_of_matched tracks rfl read inside
    refine ⟨_, ctx', parsed, ?_⟩
    split <;> simp [emptyDocument]
  · have emptied : parser.reset = true := rfl
    have read' : (valueTask (Text.Utf8.encode text)).reading
      ⟨Text.Utf8.encode text, (Text.Utf8.encode text).size⟩ [] 0 = .ok (.failed offset) := read
    obtain ⟨ctx', ran⟩ := Session.run_of_failed emptied tracks read' Text.byteLiteral
    rw [valueTask_onSpan] at ran
    have other := unexpected_ne (Text.Utf8.encode text) offset
    refine ⟨.error (parser.unexpected Text.byteLiteral _ offset), ctx', ?_, by simpa using other⟩
    simp only [parse, ran, Fault.ok_bind, Fault.pure_eq_ok]

/-- On the context of every session the text of a document is parsed to what the document denotes,
and the tree that is left shows just this: no default is taken anywhere, and there is a node for
each value, member and key.  The texts of the standard are the texts of documents, and no text at
all is called an empty document. -/
theorem parse_denotes {α : Type} [Atom α] {capacity : Nat} {start ctx : Context Tag}
    {steps : List (Session.Step α Tag)} (opened : Context.tree capacity = .ok start)
    (reached : Session.run steps start = .ok ctx) (text : String) :
    (text.toList ∈ Syntax.text ↔ ∃ document : Document, document.text = text.toList) ∧
    (∀ document : Document, document.text = text.toList →
      ∃ ctx' tree, parse ctx text = .ok (.ok document.meaning, ctx') ∧
        ctx'.forestD.Represents [tree] ∧ Shows (Text.Utf8.encode text) tree document.meaning ∧
        ctx'.forestD.size = document.value.values + document.value.members +
          document.value.keys.length) ∧
    ∃ answer ctx', parse ctx text = .ok (answer, ctx') ∧ answer ≠ .error emptyDocument := by
  have fresh : Session.Fresh true start := .tree capacity opened
  obtain ⟨refs, trees, tracks⟩ := Session.tracks_run reached fresh.tracks
  exact ⟨mem_text_iff, parse_of_document tracks, parse_not_empty tracks text⟩

def tight (mark : Char) : Structural mark :=
  ⟨[], [], Syntax.nil_mem_ws, Syntax.nil_mem_ws⟩

theorem zero_derived : ['0'] ∈ Syntax.number := by
  have absent : ∀ language, [] ∈ Syntax.optional language := fun _ => .inl rfl
  have whole : ['0'] ∈ Syntax.integer := .inl ⟨'0', rfl, rfl⟩
  exact Language.append_mem_mul (Language.append_mem_mul (Language.append_mem_mul (absent _) whole)
    (absent _)) (absent _)

/-- The document `\x7b"k":null,"k":[0,"\n"]\x7d`, where a key comes twice. -/
def twice : Document :=
  let key : Piece := .plain 'k' (.inr ⟨'k', by decide, rfl⟩)
  let entries : Phrase .elements :=
    .moreElements (.number ⟨['0'], zero_derived⟩) (tight ',')
      (.lastElement (.string [.short 'n' (by decide)]))
  { before := []
    value := .object (tight '\x7b')
      (.moreMembers (.member [key] (tight ':') .null) (tight ',')
        (.lastMember (.member [key] (tight ':') (.array (tight '[') entries (tight ']')))))
      (tight '\x7d')
    after := []
    blank := Syntax.nil_mem_ws
    blank' := Syntax.nil_mem_ws }

theorem parse_denotes_twice :
    ∃ start ctx : Context Tag, Context.tree 2 = .ok start ∧ Session.run [unclosed] start = .ok ctx ∧
      ∃ ctx' tree value,
        value = Value.object [("k", .null), ("k", .array [.number (.zero .false), .string "\n"])] ∧
        parse ctx "\x7b\"k\":null,\"k\":[0,\"\\n\"]\x7d" = .ok (.ok value, ctx') ∧
        ctx'.forestD.Represents [tree] ∧ ctx'.forestD.size = 9 := by
  obtain ⟨ctx, reached⟩ := unclosed_returns
  obtain ⟨-, denoted, -⟩ :=
    parse_denotes Session.opened_smallTree reached "\x7b\"k\":null,\"k\":[0,\"\\n\"]\x7d"
  obtain ⟨ctx', tree, parsed, represents, shows, size⟩ := denoted twice rfl
  have zero : Numeral.value ⟨['0'], zero_derived⟩ = .zero .false := by
    apply Option.some.inj
    rw [← Numeral.read_eq]
    decide +kernel
  refine ⟨_, ctx, Session.opened_smallTree, reached, ctx', tree, twice.meaning, ?_, parsed,
    represents, size⟩
  rw [← zero]
  rfl

end PegForest.Json
