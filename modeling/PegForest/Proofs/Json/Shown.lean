import PegForest.Proofs.Json.Decode
import PegForest.Proofs.Json.Document
import PegForest.Proofs.Reading.Grow

/-!
# Trees that show values

A tree shows a value if decoding it never has to make something up: its nodes have tags, a number is
written by what its node covers, a member is over a string and a value, in this order, and nothing
else, and what cannot have children has none.  Decoding such a tree gives the value.
-/

set_option autoImplicit false

namespace PegForest.Json

open MarkedTree

mutual

inductive Shows (source : Array UInt8) : MarkedTree Tag → Value → Prop where
  | null {start stop : Nat} : Shows source (.node (some .null) start stop false []) .null
  | true {start stop : Nat} : Shows source (.node (some .true) start stop false []) (.bool .true)
  | false {start stop : Nat} : Shows source (.node (some .false) start stop false []) (.bool .false)
  | number {start stop : Nat} {x : Binary64}
      (read : Decimal.read? (source.extract start stop).toList = some x) :
      Shows source (.node (some .number) start stop false []) (.number x)
  | string {start stop : Nat} {s : String}
      (unescaped : unescape (source.extract start stop).toList = s) :
      Shows source (.node (some .string) start stop false []) (.string s)
  | array {start stop : Nat} {trees : List (MarkedTree Tag)} {elements : List Value}
      (shown : ShowsAll source trees elements) :
      Shows source (.node (some .array) start stop false trees) (.array elements)
  | object {start stop : Nat} {trees : List (MarkedTree Tag)} {members : List (String × Value)}
      (shown : ShowsMembers source trees members) :
      Shows source (.node (some .object) start stop false trees) (.object members)

inductive ShowsAll (source : Array UInt8) : List (MarkedTree Tag) → List Value → Prop where
  | nil : ShowsAll source [] []
  | cons {tree : MarkedTree Tag} {value : Value} {trees : List (MarkedTree Tag)}
      {values : List Value} (here : Shows source tree value)
      (later : ShowsAll source trees values) :
      ShowsAll source (tree :: trees) (value :: values)

inductive ShowsMembers (source : Array UInt8) :
    List (MarkedTree Tag) → List (String × Value) → Prop where
  | nil : ShowsMembers source [] []
  | cons {start stop keyStart keyStop : Nat} {key : String} {tree : MarkedTree Tag} {value : Value}
      {trees : List (MarkedTree Tag)} {members : List (String × Value)}
      (unescaped : unescape (source.extract keyStart keyStop).toList = key)
      (here : Shows source tree value) (later : ShowsMembers source trees members) :
      ShowsMembers source
        (.node (some .member) start stop false
          [.node (some .string) keyStart keyStop false [], tree] :: trees)
        ((key, value) :: members)

end

variable {source : Array UInt8} {tree : MarkedTree Tag} {trees trees' : List (MarkedTree Tag)}

theorem ShowsAll.append {values values' : List Value} (shown : ShowsAll source trees values)
    (shown' : ShowsAll source trees' values') :
    ShowsAll source (trees ++ trees') (values ++ values') := by
  induction trees generalizing values with
  | nil =>
      cases shown
      exact shown'
  | cons tree rest ih =>
      cases shown with
      | cons here later => exact .cons here (ih later)

theorem ShowsMembers.append {members members' : List (String × Value)}
    (shown : ShowsMembers source trees members) (shown' : ShowsMembers source trees' members') :
    ShowsMembers source (trees ++ trees') (members ++ members') := by
  induction trees generalizing members with
  | nil =>
      cases shown
      exact shown'
  | cons tree rest ih =>
      cases shown with
      | cons unescaped here later => exact .cons unescaped here (ih later)

/-! ## Marks -/

theorem Shows.unmark {value : Value} (shown : Shows source tree value) : tree.unmark = tree := by
  cases shown <;> rfl

theorem ShowsAll.unmark {values : List Value} (shown : ShowsAll source trees values) :
    trees.map MarkedTree.unmark = trees := by
  induction trees generalizing values with
  | nil => rfl
  | cons tree rest ih =>
      cases shown with
      | cons here later => rw [List.map_cons, here.unmark, ih later]

theorem ShowsMembers.unmark {members : List (String × Value)}
    (shown : ShowsMembers source trees members) : trees.map MarkedTree.unmark = trees := by
  induction trees generalizing members with
  | nil => rfl
  | cons tree rest ih =>
      cases shown with
      | cons unescaped here later => rw [List.map_cons, MarkedTree.unmark, ih later]

/-! ## Decoding -/

mutual

/-- What a tree shows is its value, and no default is ever taken. -/
theorem Shows.valueOf_eq : {tree : MarkedTree Tag} → {value : Value} → Shows source tree value →
    valueOf source tree = value
  | _, _, .null => by rw [valueOf]
  | _, _, .true => by rw [valueOf]
  | _, _, .false => by rw [valueOf]
  | _, _, .number read => by rw [valueOf, read, Option.getD_some]
  | _, _, .string unescaped => by rw [valueOf, unescaped]
  | _, _, .array shown => by rw [valueOf, shown.valuesOf_eq]
  | _, _, .object shown => by rw [valueOf, shown.membersOf_eq]

theorem ShowsAll.valuesOf_eq : {trees : List (MarkedTree Tag)} → {values : List Value} →
    ShowsAll source trees values → valuesOf source trees = values
  | _, _, .nil => by rw [valuesOf]
  | _, _, .cons here later => by rw [valuesOf, here.valueOf_eq, later.valuesOf_eq]

theorem ShowsMembers.membersOf_eq : {trees : List (MarkedTree Tag)} →
    {members : List (String × Value)} → ShowsMembers source trees members →
    membersOf source trees = members
  | _, _, .nil => by rw [membersOf]
  | _, _, .cons unescaped here later => by
      rw [membersOf, memberOf, keyOf, MarkedTree.start, MarkedTree.stop, unescaped, here.valueOf_eq,
        later.membersOf_eq]

end

/-! ## Trees of phrases -/

/-- Trees show what the phrases of a symbol denote. -/
def ShowsAs (source : Array UInt8) :
    (symbol : Syntax.Symbol) → List (MarkedTree Tag) → Meaning symbol → Prop
  | .value, trees, value => ShowsAll source trees [value]
  | .member, trees, member => ShowsMembers source trees [member]
  | .members, trees, members => ShowsMembers source trees members
  | .elements, trees, elements => ShowsAll source trees elements

namespace Phrase

variable {symbol : Syntax.Symbol}

/-- Trees show what a phrase denotes, with a node for each value, each member and each key. -/
structure Pictured (source : Array UInt8) (phrase : Phrase symbol) (trees : List (MarkedTree Tag)) :
    Prop where
  shows : ShowsAs source symbol trees phrase.meaning
  size : sizeAll trees = phrase.values + phrase.members + phrase.keys.length

open Reading (Leaf Branch Covers)

theorem pictured_null (leaf : Leaf source .null null.text trees) :
    null.Pictured source trees := by
  obtain ⟨start, stop, rfl, -⟩ := leaf
  exact ⟨.cons .null .nil, rfl⟩

theorem pictured_true (leaf : Leaf source .true true.text trees) :
    true.Pictured source trees := by
  obtain ⟨start, stop, rfl, -⟩ := leaf
  exact ⟨.cons .true .nil, rfl⟩

theorem pictured_false (leaf : Leaf source .false false.text trees) :
    false.Pictured source trees := by
  obtain ⟨start, stop, rfl, -⟩ := leaf
  exact ⟨.cons .false .nil, rfl⟩

theorem pictured_number {numeral : Numeral} (leaf : Leaf source .number numeral.letters trees) :
    (number numeral).Pictured source trees := by
  obtain ⟨start, stop, rfl, -, covered⟩ := leaf
  exact ⟨.cons (.number (by rw [covered, numeral.read_eq])) .nil, rfl⟩

theorem unescape_covered {pieces : List Piece} {start stop : Nat}
    (covers : Covers source start stop (Piece.literal pieces)) :
    unescape (source.extract start stop).toList = .ofList (Piece.contents pieces) := by
  rw [covers.2, unescape_literal]

theorem pictured_string {pieces : List Piece}
    (leaf : Leaf source .string (Piece.literal pieces) trees) :
    (string pieces).Pictured source trees := by
  obtain ⟨start, stop, rfl, covers⟩ := leaf
  exact ⟨.cons (.string (unescape_covered covers)) .nil, rfl⟩

theorem pictured_emptyArray (opening : Structural '[') (closing : Structural ']')
    (branch : Branch .array (· = []) trees) :
    (emptyArray opening closing).Pictured source trees := by
  obtain ⟨start, stop, _, rfl, rfl⟩ := branch
  exact ⟨.cons (.array .nil) .nil, rfl⟩

theorem pictured_emptyObject (opening : Structural '\x7b') (closing : Structural '\x7d')
    (branch : Branch .object (· = []) trees) :
    (emptyObject opening closing).Pictured source trees := by
  obtain ⟨start, stop, _, rfl, rfl⟩ := branch
  exact ⟨.cons (.object .nil) .nil, rfl⟩

theorem pictured_array {elements : Phrase .elements} (opening : Structural '[')
    (closing : Structural ']') (branch : Branch .array (elements.Pictured source) trees) :
    (array opening elements closing).Pictured source trees := by
  obtain ⟨start, stop, children, rfl, pictured⟩ := branch
  have shows : ShowsAll source children elements.meaning := pictured.shows
  have size := pictured.size
  rw [shows.unmark]
  refine ⟨.cons (.array shows) .nil, ?_⟩
  simp only [sizeAll_cons, sizeAll_nil, MarkedTree.size, values, members, keys]
  omega

theorem pictured_object {entries : Phrase .members} (opening : Structural '\x7b')
    (closing : Structural '\x7d') (branch : Branch .object (entries.Pictured source) trees) :
    (object opening entries closing).Pictured source trees := by
  obtain ⟨start, stop, children, rfl, pictured⟩ := branch
  have shows : ShowsMembers source children entries.meaning := pictured.shows
  have size := pictured.size
  rw [shows.unmark]
  refine ⟨.cons (.object shows) .nil, ?_⟩
  simp only [sizeAll_cons, sizeAll_nil, MarkedTree.size, values, members, keys]
  omega

def Entry (source : Array UInt8) (key : List Piece) (value : Phrase .value)
    (trees : List (MarkedTree Tag)) : Prop :=
  ∃ front back, trees = front ++ back ∧ Leaf source .string (Piece.literal key) front ∧
    value.Pictured source back

theorem pictured_member {key : List Piece} {value : Phrase .value} (colon : Structural ':')
    (branch : Branch .member (Entry source key value) trees) :
    (member key colon value).Pictured source trees := by
  obtain ⟨start, stop, _, rfl, _, back, rfl, ⟨keyStart, keyStop, rfl, covers⟩, pictured⟩ := branch
  have shows : ShowsAll source back [value.meaning] := pictured.shows
  have size := pictured.size
  rw [List.map_append, shows.unmark]
  cases shows with
  | cons here later =>
      cases later
      refine ⟨.cons (unescape_covered covers) here .nil, ?_⟩
      simp only [sizeAll_cons, sizeAll_nil, MarkedTree.size, values, members, keys,
        List.length_cons, List.singleton_append, List.map_cons, List.map_nil,
        MarkedTree.unmark] at size ⊢
      omega

theorem Pictured.lastMember {only : Phrase .member} (pictured : only.Pictured source trees) :
    (lastMember only).Pictured source trees :=
  ⟨pictured.shows, pictured.size⟩

theorem Pictured.lastElement {only : Phrase .value} (pictured : only.Pictured source trees) :
    (lastElement only).Pictured source trees :=
  ⟨pictured.shows, pictured.size⟩

theorem Pictured.moreMembers {first : Phrase .member} {others : Phrase .members}
    (comma : Structural ',') (pictured : first.Pictured source trees)
    (pictured' : others.Pictured source trees') :
    (moreMembers first comma others).Pictured source (trees ++ trees') := by
  have size := pictured.size
  have size' := pictured'.size
  refine ⟨ShowsMembers.append pictured.shows pictured'.shows, ?_⟩
  simp only [sizeAll_append, values, members, keys, List.length_append]
  omega

theorem Pictured.moreElements {first : Phrase .value} {others : Phrase .elements}
    (comma : Structural ',') (pictured : first.Pictured source trees)
    (pictured' : others.Pictured source trees') :
    (moreElements first comma others).Pictured source (trees ++ trees') := by
  have size := pictured.size
  have size' := pictured'.size
  refine ⟨ShowsAll.append pictured.shows pictured'.shows, ?_⟩
  simp only [sizeAll_append, values, members, keys, List.length_append]
  omega

end Phrase

end PegForest.Json
