import PegForest.Proofs.Json.Decode
import PegForest.Proofs.Json.Recognize
import PegForest.Proofs.Session

/-!
# Accepted texts

Parsing a text gives an answer on the context of every session, and the answer is a value exactly
for the texts of the standard.

The match has the outcome of its reading, the reading follows a scanner, and the scanner takes a
whole text exactly when the standard derives it.  A reading that matches plants a tree, so there is
something to decode.
-/

set_option autoImplicit false

namespace PegForest

/-! ## Readings that plant trees -/

namespace Reading

variable {τ : Type} {first second reading : Reading τ}

def Plants (reading : Reading τ) : Prop :=
  ∀ refs cursor next trees stored, reading refs cursor = .ok (.matched next trees stored) → trees ≠ []

theorem plants_node (reading : Reading τ) (tag : Option τ) (bookmark : Bool) :
    (reading.node tag bookmark).Plants := by
  intro refs cursor next trees stored matched
  obtain ⟨outcome, -, built⟩ := Fault.bind_eq_ok.mp matched
  cases outcome with
  | matched _ _ _ =>
      cases built
      simp
  | failed _ => cases built

theorem Plants.firstOf {readings : List (Reading τ)} (plants : ∀ reading ∈ readings, reading.Plants)
    (offset : Nat) : (firstOf offset readings).Plants := by
  induction readings generalizing offset with
  | nil =>
      intro refs cursor next trees stored matched
      cases matched
  | cons reading rest ih =>
      rw [List.forall_mem_cons] at plants
      intro refs cursor next trees stored matched
      obtain ⟨outcome, found, goesOn⟩ := Fault.bind_eq_ok.mp matched
      cases outcome with
      | matched next' trees' stored' =>
          cases goesOn
          exact plants.1 refs cursor _ _ _ found
      | failed furthest => exact ih plants.2 _ refs cursor _ _ _ goesOn

theorem Plants.choice {readings : List (Reading τ)}
    (plants : ∀ reading ∈ readings, reading.Plants) : (choice readings).Plants := by
  intro refs cursor
  exact Plants.firstOf plants cursor refs cursor

theorem exists_of_andThen {refs : List Backref} {cursor next : Nat} {trees : List (MarkedTree τ)}
    {stored : List Backref}
    (matched : (first.andThen second) refs cursor = .ok (.matched next trees stored)) :
    ∃ middle front back stored₁ stored₂, first refs cursor = .ok (.matched middle front stored₁) ∧
      second (refs ++ stored₁) middle = .ok (.matched next back stored₂) ∧ trees = front ++ back := by
  obtain ⟨outcome, found, goesOn⟩ := Fault.bind_eq_ok.mp matched
  cases outcome with
  | failed offset => cases goesOn
  | matched middle front stored₁ =>
      obtain ⟨back, stored₂, found', rfl, -⟩ := Reading.exists_of_resume goesOn
      exact ⟨middle, front, back, stored₁, stored₂, found, found', rfl⟩

theorem Plants.andThen_left (plants : first.Plants) : (first.andThen second).Plants := by
  intro refs cursor next trees stored matched
  obtain ⟨_, _, _, _, _, found, -, rfl⟩ := exists_of_andThen matched
  have planted := plants _ _ _ _ _ found
  simp [planted]

theorem Plants.andThen_right (plants : second.Plants) : (first.andThen second).Plants := by
  intro refs cursor next trees stored matched
  obtain ⟨_, _, _, _, _, -, found, rfl⟩ := exists_of_andThen matched
  have planted := plants _ _ _ _ _ found
  simp [planted]

end Reading

namespace Json

variable {input : Array UInt8}

theorem plants_call (depth : Nat) (rule : Rule) :
    (grammar.callReading .natural ⟨input, input.size⟩ depth rule).Plants := by
  cases depth with
  | zero =>
      intro refs cursor next trees stored matched
      cases matched
  | succ depth =>
      refine Reading.Plants.andThen_right (.andThen_left (.choice ?_))
      simp only [Matcher.readings, List.forall_mem_cons]
      exact ⟨Reading.plants_node _ _ _, Reading.plants_node _ _ _, Reading.plants_node _ _ _,
        Reading.plants_node _ _ _, Reading.plants_node _ _ _, Reading.plants_node _ _ _,
        Reading.plants_node _ _ _, by simp⟩

/-- The reading of a whole text ends at the end of the text exactly if the standard derives it. -/
theorem reading_text (text : String) (refs : List Backref) {input : Array UInt8}
    (encoded : Text.Utf8.encode text = input) :
    (∃ next tree rest stored,
      grammar.reading .natural (input.size + 1) ⟨input, input.size⟩ (.rule .value) refs 0 =
        .ok (.matched next (tree :: rest) stored) ∧
      tree.stop ≤ input.size ∧ next ≤ input.size ∧
      (text.toList ∈ Syntax.text ↔ next = input.size)) ∨
    ∃ offset,
      grammar.reading .natural (input.size + 1) ⟨input, input.size⟩ (.rule .value) refs 0 =
        .ok (.failed offset) ∧
      text.toList ∉ Syntax.text := by
  have place : Before input 0 text.toList := ⟨[], by rw [← encoded, toList_encode]; rfl, rfl⟩
  have short : text.toList.length < input.size + 1 := by
    have length := length_le_encodeAll text.toList
    rw [place.size]
    omega
  have whole := Scan.value_eq_nil_iff short
  have mirrors := scans_call (input.size + 1) .value refs 0 text.toList place short
  rcases mirrors.cases with ⟨next, trees, stored, rest, found, taken, place', -⟩ |
    ⟨offset, found, taken⟩
  · have advance := grammar.advances_call (input.size + 1) .value refs 0 _ found
    have bounded : next ≤ input.size := advance.bounded (Nat.zero_le _)
    rw [taken, Option.some_inj, place'.nil_iff] at whole
    obtain ⟨tree, others, rfl⟩ := List.exists_cons_of_ne_nil (plants_call _ _ _ _ _ _ _ found)
    have inside := (advance.covers.inside tree (by simp)).2
    exact .inl ⟨next, tree, others, stored, found, Nat.le_trans inside bounded, bounded, whole.symm⟩
  · refine .inr ⟨offset, found, ?_⟩
    rw [← whole, taken]
    simp

theorem decode_of_tracks {ctx : Context Tag} {source : Array UInt8} {refs : List Backref}
    {tree : MarkedTree Tag} {rest : List (MarkedTree Tag)}
    (tracks : ctx.Tracks refs (tree :: rest) true) (inside : tree.stop ≤ source.size) :
    ∃ root, ctx.forestD.head = some root ∧
      decode ctx.forestD source root = .ok (valueOf source tree) := by
  obtain ⟨root, head, low, subtree⟩ :=
    tracks.represents.subtree_head (tracks.sound tree List.mem_cons_self)
  exact ⟨root, head, decode_eq subtree inside⟩

def valueTask (input : Array UInt8) : Session.Task UInt8 Tag :=
  { grammar := grammar, order := .natural, depth := input.size + 1, matcher := .rule .value }

theorem valueTask_onSpan (input : Array UInt8) :
    (valueTask input).onSpan = grammar.runOn .natural (input.size + 1) (.rule .value) := rfl

theorem parse_of_tracks {ctx : Context Tag} {refs : List Backref} {trees : List (MarkedTree Tag)}
    (tracks : ctx.Tracks refs trees true) (text : String) :
    (text.toList ∈ Syntax.text ∧ ∃ value ctx', parse ctx text = .ok (.ok value, ctx')) ∨
    (text.toList ∉ Syntax.text ∧ ∃ error ctx', parse ctx text = .ok (.error error, ctx')) := by
  have full : parser.full = true := rfl
  have emptied : parser.reset = true := rfl
  unfold parse
  generalize encoded : Text.Utf8.encode text = input
  rcases reading_text text [] encoded with ⟨next, tree, rest, stored, read, inside, bounded, whole⟩ |
    ⟨offset, read, refused⟩
  · have read' : (valueTask input).reading ⟨input, input.size⟩ [] 0 =
      .ok (.matched next (tree :: rest) stored) := read
    obtain ⟨final, tracks', ran⟩ := Session.run_of_matched full emptied tracks read' Text.byteLiteral
    rw [valueTask_onSpan] at ran
    simp only [ran, Fault.ok_bind]
    by_cases atEnd : next = input.size
    · obtain ⟨root, head, decoded⟩ := decode_of_tracks tracks' inside
      refine .inl ⟨whole.mpr atEnd, valueOf input tree, final, ?_⟩
      simp only [if_neg (Nat.not_lt.mpr (Nat.le_of_eq atEnd.symm)), head, decoded, Fault.ok_bind,
        Fault.pure_eq_ok]
    · refine .inr ⟨mt whole.mp atEnd, .trailing ⟨next, input.size⟩, final, ?_⟩
      simp only [if_pos (Nat.lt_of_le_of_ne bounded atEnd), Fault.pure_eq_ok]
  · have read' : (valueTask input).reading ⟨input, input.size⟩ [] 0 = .ok (.failed offset) := read
    obtain ⟨final, ran⟩ := Session.run_of_failed emptied tracks read' Text.byteLiteral
    rw [valueTask_onSpan] at ran
    refine .inr ⟨refused, parser.unexpected Text.byteLiteral input offset, final, ?_⟩
    simp only [ran, Fault.ok_bind, Fault.pure_eq_ok]

/-- On the context of every session, parsing a text returns an answer, and the answer is a value
exactly if the standard derives the text. -/
theorem parse_ok_iff {α : Type} [Atom α] {capacity : Nat} {start ctx : Context Tag}
    {steps : List (Session.Step α Tag)} (opened : Context.tree capacity = .ok start)
    (reached : Session.run steps start = .ok ctx) (text : String) :
    ∃ answer ctx', parse ctx text = .ok (answer, ctx') ∧
      ((∃ value, answer = .ok value) ↔ text.toList ∈ Syntax.text) ∧
      ((∃ error, answer = .error error) ↔ text.toList ∉ Syntax.text) := by
  have fresh : Session.Fresh true start := .tree capacity opened
  obtain ⟨refs, trees, tracks⟩ := Session.tracks_run reached fresh.tracks
  rcases parse_of_tracks tracks text with ⟨derived, value, ctx', parsed⟩ |
    ⟨refused, error, ctx', parsed⟩
  · exact ⟨_, ctx', parsed, by simp [derived], by simp [derived]⟩
  · exact ⟨_, ctx', parsed, by simp [refused], by simp [refused]⟩

/-- A parse of an array that is never closed, which leaves nodes behind. -/
def unclosed : Session.Step UInt8 Tag :=
  .parse { grammar := grammar, order := .natural, depth := 3, matcher := .rule .value } parser
    Text.byteLiteral #[0x5B, 0x31]

theorem unclosed_returns : ∃ ctx, Session.run [unclosed] Session.smallTree = .ok ctx :=
  Fault.exists_of_toBool (by decide +kernel)

theorem parse_ok_iff_unclosed :
    ∃ start ctx : Context Tag, Context.tree 2 = .ok start ∧ Session.run [unclosed] start = .ok ctx ∧
      ∃ answer ctx', parse ctx "[1]" = .ok (answer, ctx') ∧
        ((∃ value, answer = .ok value) ↔ "[1]".toList ∈ Syntax.text) ∧
        ((∃ error, answer = .error error) ↔ "[1]".toList ∉ Syntax.text) := by
  obtain ⟨ctx, reached⟩ := unclosed_returns
  exact ⟨_, ctx, Session.opened_smallTree, reached,
    parse_ok_iff Session.opened_smallTree reached "[1]"⟩

end Json

end PegForest
