import PegForest.Proofs.NestedList.Write
import PegForest.Proofs.Session

/-!
# Round trips

On the context of every session a text is parsed as a nested list exactly if the grammar derives it.
The context then holds the tree of the derivation and nothing else, and the tree is written as the
text without the commas before closing parentheses.  Parsing what was written leads to a tree with
the same outline, which is written as the same text again; and every outline is reached like that
from its own rendering.
-/

set_option autoImplicit false

namespace PegForest.NestedList

variable {ctx : Context Tag} {refs : List Backref} {trees : List (MarkedTree Tag)}

def listTask (input : Array UInt8) : Session.Task UInt8 Tag :=
  { grammar := grammar, order := .natural, depth := input.size + 1, matcher := .rule .list }

theorem parse_eq (ctx : Context Tag) (text : String) :
    parse ctx text = parser.runOn Text.byteLiteral (listTask (Text.Utf8.encode text)).onSpan ctx
      (Text.Utf8.encode text) :=
  rfl

def readingOf (text : String) : Except Fault (Outcome Tag) :=
  let input := Text.Utf8.encode text
  (listTask input).reading ⟨input, input.size⟩ [] 0

theorem parse_of_phrase (tracks : ctx.Tracks refs trees true) {text : String}
    (phrase : Phrase .list) (spelled : phrase.text = text.toList) :
    ∃ size ctx', ctx'.Tracks [] (phrase.trees 0) true ∧ parse ctx text = .ok (.ok size, ctx') := by
  have full : parser.full = true := rfl
  have emptied : parser.reset = true := rfl
  have place := before_text text
  rw [← spelled, ← List.append_nil phrase.text] at place
  have atEnd : 0 + phrase.length = (Text.Utf8.encode text).size :=
    (phrase.before_rest place).nil_iff.mp rfl
  have deep : phrase.length ≤ (Text.Utf8.encode text).size + 1 := by omega
  have read : readingOf text = .ok (.matched (0 + phrase.length) (phrase.trees 0) []) :=
    taken phrase place (phrase.list_stops []) deep (Nat.le_refl _) []
  obtain ⟨ctx', tracks', ran⟩ := Session.run_of_matched full emptied tracks read Text.byteLiteral
  rw [if_neg (by omega), ← parse_eq] at ran
  exact ⟨_, ctx', tracks', ran⟩

theorem finds_text (text : String) : Finds .list 0 text.toList (readingOf text) := by
  have place := before_text text
  exact finds_list _ [] 0 _ place (Nat.lt_succ_of_le place.length_le)

theorem parse_stuck (tracks : ctx.Tracks refs trees true) {text : String}
    (none_spells : ∀ phrase : Phrase .list, phrase.text ≠ text.toList) :
    ∃ error ctx' front rest, parse ctx text = .ok (.error error, ctx') ∧
      text.toList = front ++ rest ∧ Stuck .list front rest ∧ error.offset = front.length := by
  have full : parser.full = true := rfl
  have emptied : parser.reset = true := rfl
  obtain ⟨phrase, rest, split, -, read⟩ | ⟨front, rest, split, stuck, read⟩ := finds_text text
  · obtain ⟨ctx', -, ran⟩ := Session.run_of_matched full emptied tracks read Text.byteLiteral
    -- What is found at the front is a phrase, and so it is not the whole text.
    have trailing : 0 + phrase.length < (Text.Utf8.encode text).size := by
      have place := before_text text
      rw [split] at place
      have later := phrase.before_rest place
      have size := later.size
      have more : 0 + phrase.length ≠ (Text.Utf8.encode text).size := by
        intro atEnd
        rw [later.nil_iff.mpr atEnd, List.append_nil] at split
        exact none_spells phrase split.symm
      omega
    rw [if_pos trailing, ← parse_eq] at ran
    exact ⟨_, ctx', phrase.text, rest, ran, split, stuck_complete phrase rest, Nat.zero_add _⟩
  · obtain ⟨ctx', ran⟩ := Session.run_of_failed emptied tracks read Text.byteLiteral
    rw [← parse_eq] at ran
    refine ⟨_, ctx', front, rest, ran, split, stuck, ?_⟩
    rw [Session.offset_unexpected, Nat.zero_add]

theorem parse_of_none (tracks : ctx.Tracks refs trees true) {text : String}
    (none_spells : ∀ phrase : Phrase .list, phrase.text ≠ text.toList) :
    ∃ error ctx', parse ctx text = .ok (.error error, ctx') := by
  obtain ⟨error, ctx', -, -, parsed, -⟩ := parse_stuck tracks none_spells
  exact ⟨error, ctx', parsed⟩

/-- A parse of a text leaves the tree of an outline in the context, and this is what is written. -/
structure Leaves (ctx ctx' : Context Tag) (text : String) (trees : List (MarkedTree Tag))
    (outline : Outline) (written : String) : Prop where
  parsed : ∃ size, parse ctx text = .ok (.ok size, ctx')
  represents : ctx'.forestD.Represents trees
  shows : List.Forall₂ (Shows (Text.Utf8.encode text)) trees [outline]
  serialized : serialize ctx'.forestD (Text.Utf8.encode text) = .ok written

theorem leaves_of_phrase (tracks : ctx.Tracks refs trees true) {text : String}
    {phrase : Phrase .list} {outline : Outline} (spelled : phrase.text = text.toList)
    (outlined : phrase.outlines = [outline]) :
    ∃ ctx', Leaves ctx ctx' text (phrase.trees 0) outline (String.ofList outline.render) ∧
      ctx'.Tracks [] (phrase.trees 0) true := by
  obtain ⟨size, ctx', tracks', parsed⟩ := parse_of_phrase tracks phrase spelled
  have place := before_text text
  rw [← spelled, ← List.append_nil phrase.text] at place
  have shows := phrase.shows place
  rw [outlined] at shows
  have represents := tracks'.represents
  have sound := tracks'.sound
  have serialized : serialize ctx'.forestD (Text.Utf8.encode text) =
      .ok (String.ofList outline.render) := by
    generalize phrase.trees 0 = trees at shows represents sound
    cases shows with
    | cons shown rest =>
        cases rest
        exact serialize_eq represents (sound _ List.mem_cons_self) shown
  exact ⟨ctx', ⟨⟨size, parsed⟩, tracks'.represents, shows, serialized⟩, tracks'⟩

/-- The accepted texts are those of the grammar; each leaves the tree of its derivation, is written
without the commas before closing parentheses, and is then read again as the same outline.  Every
outline is read from its rendering and written back. -/
theorem parse_roundTrip {α : Type} [Atom α] {capacity : Nat} {start ctx : Context Tag}
    {steps : List (Session.Step α Tag)} (opened : Context.tree capacity = .ok start)
    (reached : Session.run steps start = .ok ctx) :
    (∀ text : String, ∃ answer ctx', parse ctx text = .ok (answer, ctx') ∧
      ((∃ size, answer = .ok size) ↔ Derives .list text.toList) ∧
      ((∃ size, answer = .ok size) ↔ ∃ phrase : Phrase .list, phrase.text = text.toList)) ∧
    (∀ (text : String) (phrase : Phrase .list), phrase.text = text.toList →
      ∃ written outline ctx' ctx'' trees, written = String.ofList (dropCommas text.toList) ∧
        Leaves ctx ctx' text (phrase.trees 0) outline written ∧
        ctx'.forestD.size = phrase.words + phrase.lists ∧
        Leaves ctx' ctx'' written trees outline written) ∧
    ∀ items : List Outline, ∃ rendering ctx' trees,
      rendering = String.ofList (Outline.list items).render ∧
      Leaves ctx ctx' rendering trees (.list items) rendering := by
  have fresh : Session.Fresh true start := .tree capacity opened
  obtain ⟨refs, trees, tracks⟩ := Session.tracks_run reached fresh.tracks
  refine ⟨?_, ?_, ?_⟩
  · intro text
    by_cases spelled : ∃ phrase : Phrase .list, phrase.text = text.toList
    · have ⟨phrase, spells⟩ := spelled
      obtain ⟨size, ctx', -, parsed⟩ := parse_of_phrase tracks phrase spells
      exact ⟨_, ctx', parsed, iff_of_true ⟨size, rfl⟩ (derives_iff.mpr spelled),
        iff_of_true ⟨size, rfl⟩ spelled⟩
    · obtain ⟨error, ctx', parsed⟩ := parse_of_none tracks (not_exists.mp spelled)
      have refused : ¬∃ size, (Except.error error : Except ParseError Nat) = .ok size := by simp
      exact ⟨_, ctx', parsed, iff_of_false refused (mt derives_iff.mp spelled),
        iff_of_false refused spelled⟩
  · intro text phrase spelled
    obtain ⟨items, outlined, dropped⟩ := phrase.exists_items
    obtain ⟨phrase', outlined', spelled'⟩ := Outline.exists_phrase items
    obtain ⟨ctx', leaves, tracks'⟩ := leaves_of_phrase tracks spelled outlined
    rw [← String.toList_ofList (l := (Outline.list items).render)] at spelled'
    obtain ⟨ctx'', leaves', -⟩ := leaves_of_phrase tracks' spelled' outlined'
    have size := leaves.represents.size_eq.trans (phrase.sizeAll_trees 0)
    exact ⟨_, _, ctx', ctx'', _, by rw [← spelled, dropped], leaves, size, leaves'⟩
  · intro items
    obtain ⟨phrase, outlined, spelled⟩ := Outline.exists_phrase items
    rw [← String.toList_ofList (l := (Outline.list items).render)] at spelled
    obtain ⟨ctx', leaves, -⟩ := leaves_of_phrase tracks spelled outlined
    exact ⟨_, ctx', _, rfl, leaves⟩

def earlier : Session.Step UInt8 Tag :=
  .parse (listTask #[0x28, 0x61, 0x29]) parser Text.byteLiteral #[0x28, 0x61, 0x29]

theorem earlier_returns : ∃ ctx, Session.run [earlier] Session.smallTree = .ok ctx :=
  Fault.exists_of_toBool (by decide +kernel)

/-- The derivation of `(ab,(c,),)`. -/
def trailing : Phrase .list :=
  .parens (.more (.word ⟨['a', 'b'], by simp, by simp⟩)
    (.more (.nested (.parens (.more (.word ⟨['c'], by simp, by simp⟩) .close))) .close))

theorem parse_roundTrip_trailing :
    ∃ start ctx : Context Tag, Context.tree 2 = .ok start ∧ Session.run [earlier] start = .ok ctx ∧
      ∃ outline ctx' ctx'' trees,
        Leaves ctx ctx' "(ab,(c,),)" (trailing.trees 0) outline "(ab,(c))" ∧
        ctx'.forestD.size = 4 ∧ Leaves ctx' ctx'' "(ab,(c))" trees outline "(ab,(c))" := by
  obtain ⟨ctx, reached⟩ := earlier_returns
  obtain ⟨-, derived, -⟩ := parse_roundTrip Session.opened_smallTree reached
  obtain ⟨written, outline, ctx', ctx'', trees, dropped, leaves, size, leaves'⟩ :=
    derived "(ab,(c,),)" trailing rfl
  have canonical : written = "(ab,(c))" := dropped.trans (by decide)
  subst canonical
  exact ⟨_, ctx, Session.opened_smallTree, reached, outline, ctx', ctx'', trees, leaves, size,
    leaves'⟩

end PegForest.NestedList
