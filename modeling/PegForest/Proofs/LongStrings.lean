import PegForest.Proofs.Action.Spare
import PegForest.Proofs.Backreference
import PegForest.Proofs.LongString
import PegForest.Proofs.Reading.Word

/-!
# Each long string of a list closes at its own level

A list of long strings is read one after the other.  Each of them finds the level that it has stored
itself, because it is the last one in the store, whatever was there before and whatever the strings
before it have left.  So a long string is matched or refused no matter what is stored, and the list
ends behind the last string that can be matched.

A string that was begun and given up leaves nothing behind: its level is taken back, and since no
nodes are made, the forest and the log are as they were.
-/

set_option autoImplicit false

namespace PegForest.LongString

open Text.Ascii

/-! ## Long strings in bytes -/

/-- A long string: its level, and the bytes between the brackets. -/
structure Piece where
  level : Nat
  body : List UInt8
  deriving DecidableEq, Repr

namespace Piece

def atoms (piece : Piece) : List UInt8 :=
  bytes (opener piece.level) ++ (piece.body ++ bytes (closer piece.level))

def Closed (piece : Piece) : Prop :=
  ClosedBy (bytes (closer piece.level)) piece.body

instance (piece : Piece) : Decidable piece.Closed :=
  inferInstanceAs (Decidable (ClosedBy _ _))

end Piece

def entryAt (cursor n : Nat) : Backref :=
  ⟨level, ⟨cursor + 1, cursor + 1 + n⟩⟩

/-- What long strings leave in the store, the first at the cursor and one byte between each two. -/
def entriesFrom : (cursor : Nat) → List Piece → List Backref
  | _, [] => []
  | cursor, piece :: rest =>
      entryAt cursor piece.level :: entriesFrom (cursor + piece.atoms.length + 1) rest

theorem length_entriesFrom (cursor : Nat) (pieces : List Piece) :
    (entriesFrom cursor pieces).length = pieces.length := by
  induction pieces generalizing cursor with
  | nil => rfl
  | cons piece rest ih => rw [entriesFrom, List.length_cons, List.length_cons, ih]

def joined (pieces : List Piece) : List UInt8 :=
  [byte ','].intercalate (pieces.map Piece.atoms)

def behindCommas (pieces : List Piece) : List UInt8 :=
  pieces.flatMap fun piece => byte ',' :: piece.atoms

theorem behindCommas_cons (piece : Piece) (pieces : List Piece) :
    behindCommas (piece :: pieces) = byte ',' :: (piece.atoms ++ behindCommas pieces) :=
  rfl

theorem joined_cons (piece : Piece) (pieces : List Piece) :
    joined (piece :: pieces) = piece.atoms ++ behindCommas pieces := by
  induction pieces generalizing piece with
  | nil => simp [joined, behindCommas]
  | cons next pieces ih =>
      have later := ih next
      simp only [joined, List.map_cons] at later ⊢
      rw [List.intercalate_cons_cons, later, behindCommas_cons, List.append_assoc]
      rfl

theorem length_le_behindCommas (pieces : List Piece) :
    pieces.length ≤ (behindCommas pieces).length := by
  induction pieces with
  | nil => exact Nat.le_refl 0
  | cons piece pieces ih =>
      rw [behindCommas_cons, List.length_cons, List.length_cons, List.length_append]
      omega

/-- The order takes no other byte for a bracket, an equals sign or a comma. -/
def Marks (order : Comparator UInt8) : Prop :=
  ∀ mark ∈ ['[', '=', ']', ','], order.Discerns (byte mark)

theorem marks_natural : Marks .natural := by
  intro mark _ b
  simp [Comparator.same, Comparator.natural]

theorem marks_caselessByte : Marks .caselessByte := by
  intro mark member b
  have unlettered : ∀ mark ∈ ['[', '=', ']', ','],
      (byte mark).toNat < 65 ∨ 90 < (byte mark).toNat ∧ (byte mark).toNat < 97 := by
    simp [byte]
  have value := unlettered mark member
  have kept : lower (byte mark) = byte mark := by
    rw [lower, if_neg]
    simp only [UInt8.le_iff_toNat_le, UInt8.reduceToNat]
    omega
  rw [Comparator.same, Comparator.caselessByte, Comparator.byKey, beq_iff_eq,
    Std.LawfulEqCmp.compare_eq_iff_eq, kept, lower]
  split
  · next letter =>
      simp only [UInt8.le_iff_toNat_le, UInt8.reduceToNat] at letter
      simp only [← UInt8.toNat_inj, UInt8.toNat_add, UInt8.reduceToNat]
      omega
  · rfl

/-! ## Readings -/

section Readings

variable {τ : Type} (order : Comparator UInt8) (window : Window UInt8)

def markOn (mark : Char) : Reading τ :=
  .literal order window [byte mark]

def levelOn : Reading τ :=
  .store level fun refs cursor =>
    (markOn order window '=').greedy (.stop .exhausted) (window.left cursor + 1) refs cursor

def closingOn : Reading τ :=
  (markOn order window ']').andThen ((Reading.backref order window level).andThen
    (markOn order window ']'))

def bodyOn : Reading τ :=
  Reading.andThen (fun refs cursor =>
    (closingOn order window).upTo (window.left cursor) refs cursor) (closingOn order window)

def stringOn : Reading τ :=
  (markOn order window '[').andThen ((levelOn order window).andThen
    ((markOn order window '[').andThen (bodyOn order window)))

def furtherOn : Reading τ := fun refs cursor =>
  ((markOn order window ',').andThen (stringOn order window)).greedy (.stop .exhausted)
    (window.left cursor + 1) refs cursor

def listOn : Reading τ :=
  (stringOn order window).andThen
    ((furtherOn order window).andThen (markOn order window ',').optional)

variable {ρ : Type} (call : ρ → Reading τ)

theorem reading_longString : longString.reading order window call = stringOn order window := by
  simp only [longString, closing, Matcher.atom, Matcher.reading, Matcher.readings, Reading.sequence,
    Reading.andThen_succeed, stringOn, levelOn, bodyOn, closingOn, markOn, Reading.literal_singleton]

theorem reading_longStrings : longStrings.reading order window call = listOn order window := by
  simp only [longStrings, Matcher.reading, Matcher.readings, Reading.sequence,
    Reading.andThen_succeed, reading_longString, Matcher.atom, listOn, markOn,
    Reading.literal_singleton]
  unfold furtherOn markOn
  simp only [Reading.literal_singleton]

end Readings

/-! ## One string -/

section Strings

variable {τ : Type} {order : Comparator UInt8} {window : Window UInt8} {cursor n : Nat}
  {rest : List UInt8} {piece : Piece}

theorem bytes_opener (n : Nat) :
    bytes (opener n) = byte '[' :: (List.replicate n (byte '=') ++ [byte '[']) := by
  simp [opener, bytes]

theorem bytes_closer (n : Nat) :
    bytes (closer n) = byte ']' :: (List.replicate n (byte '=') ++ [byte ']']) := by
  simp [closer, bytes]

theorem Piece.length_atoms (piece : Piece) :
    piece.atoms.length = piece.level + 2 + piece.body.length + (piece.level + 2) := by
  simp only [atoms, bytes, List.length_append, List.length_map, length_opener, length_closer]
  omega

theorem prefix_mark {mark : Char} {atoms : List UInt8} :
    [byte mark] <+: atoms ↔ ∃ rest, atoms = byte mark :: rest :=
  ⟨fun ⟨rest, spelled⟩ => ⟨rest, spelled.symm⟩, fun ⟨rest, spelled⟩ => ⟨rest, spelled.symm⟩⟩

section Opened

variable (opened : window.ahead cursor = bytes (opener n) ++ rest)
include opened

theorem ahead_equals :
    window.ahead (cursor + 1) = List.replicate n (byte '=') ++ byte '[' :: rest := by
  rw [Window.ahead_add, opened, bytes_opener]
  simp

theorem ahead_second : window.ahead (cursor + 1 + n) = byte '[' :: rest := by
  have later := Window.ahead_of_append (ahead_equals opened)
  rwa [List.length_replicate] at later

theorem ahead_body : window.ahead (cursor + 1 + n + 1) = rest := by
  rw [Window.ahead_add, ahead_second opened]
  rfl

theorem closing_finds (order : Comparator UInt8) (refs : List Backref) (place : Nat) :
    (closingOn order window : Reading τ) (refs ++ [entryAt cursor n]) place =
      Reading.literal order window (bytes (closer n)) (refs ++ [entryAt cursor n]) place := by
  have equals := ahead_equals opened
  have extracted := Window.extract_of_ahead equals
  have within : cursor + 1 + n ≤ window.source.size := by
    have length := congrArg List.length equals
    rw [Window.length_ahead, List.length_append, List.length_replicate, List.length_cons] at length
    omega
  have recalled : ∀ place, (Reading.backref order window level : Reading τ)
      (refs ++ [entryAt cursor n]) place = Reading.literal order window
        (List.replicate n (byte '=')) (refs ++ [entryAt cursor n]) place := by
    intro place
    have unnamed : ∀ entry ∈ ([] : List Backref), entry.name ≠ level := nofun
    have stored := Reading.backref_of_stored (τ := τ) refs [] (Nat.le_add_right (cursor + 1) n)
      within unnamed order window.limit place
    rw [List.length_replicate] at extracted
    rwa [List.nil_append, List.append_nil, extracted] at stored
  rw [bytes_closer, closingOn, markOn, Reading.literal_singleton,
    Reading.literal_cons _ _ _ (_ ++ _), Reading.literal_append, Reading.literal_singleton]
  apply Reading.one_andThen_congr
  intro place
  unfold Reading.andThen
  rw [recalled]

end Opened

section Marked

variable (marks : Marks order)
include marks

theorem Marks.mark {mark : Char} (member : mark ∈ ['[', '=', ']', ',']) :
    ∀ atom ∈ [byte mark], order.Discerns atom :=
  List.forall_mem_singleton.mpr (marks mark member)

theorem Marks.equals (n : Nat) : ∀ atom ∈ List.replicate n (byte '='), order.Discerns atom := by
  intro atom member
  rw [List.eq_of_mem_replicate member]
  exact marks '=' (by decide)

theorem Marks.closer (n : Nat) : ∀ atom ∈ bytes (closer n), order.Discerns atom := by
  rw [bytes_closer, List.forall_mem_cons, List.forall_mem_append]
  exact ⟨marks ']' (by decide), marks.equals n, marks.mark (by decide)⟩

theorem mark_taken {mark : Char} (member : mark ∈ ['[', '=', ']', ','])
    (spelled : window.ahead cursor = byte mark :: rest) (refs : List Backref) :
    (markOn order window mark : Reading τ) refs cursor = .ok (.matched (cursor + 1) [] []) :=
  Reading.word_matched (marks.mark member) spelled refs

theorem mark_refused {mark : Char} (member : mark ∈ ['[', '=', ']', ','])
    (absent : ¬[byte mark] <+: window.ahead cursor) (refs : List Backref) :
    ∃ offset, (markOn order window mark : Reading τ) refs cursor = .ok (.failed offset) :=
  Reading.word_missing (marks.mark member) absent refs

variable (inside : window.limit ≤ window.source.size)
include inside

theorem level_stored (spelled : window.ahead cursor = List.replicate n (byte '=') ++ rest)
    (ended : ¬[byte '='] <+: rest) (refs : List Backref) :
    (levelOn order window : Reading τ) refs cursor =
      .ok (.matched (cursor + n) [] [⟨level, ⟨cursor, cursor + n⟩⟩]) := by
  have enough : n < window.left cursor + 1 := by
    rw [Window.left_ahead inside, spelled, List.length_append, List.length_replicate]
    omega
  exact Reading.store_of_matched
    (Reading.greedy_run (marks '=' (by decide)) spelled ended enough refs) level

theorem string_opened (opened : window.ahead cursor = bytes (opener n) ++ rest)
    (refs : List Backref) :
    (stringOn order window : Reading τ) refs cursor =
      (bodyOn order window).resume refs (cursor + 1 + n + 1) [] [entryAt cursor n] := by
  have spelled := opened
  rw [bytes_opener, List.cons_append] at spelled
  have first := mark_taken (τ := τ) marks (by decide) spelled refs
  have stored : (levelOn order window : Reading τ) refs (cursor + 1) =
      .ok (.matched (cursor + 1 + n) [] [entryAt cursor n]) :=
    level_stored marks inside (ahead_equals opened) (by simp [byte]) refs
  have second := mark_taken (τ := τ) marks (by decide) (ahead_second opened)
    (refs ++ [entryAt cursor n])
  rw [stringOn, Reading.andThen_of_matched first, Reading.resume_nil,
    Reading.andThen_of_matched stored, Reading.resume, Reading.andThen_of_matched second,
    Reading.resume_nil]
  rfl

theorem string_closed (closed : piece.Closed) (spelled : window.ahead cursor = piece.atoms ++ rest)
    (refs : List Backref) :
    (stringOn order window : Reading τ) refs cursor =
      .ok (.matched (cursor + piece.atoms.length) [] [entryAt cursor piece.level]) := by
  rw [Piece.atoms, List.append_assoc, List.append_assoc] at spelled
  have body := ahead_body spelled
  have finds := closing_finds (τ := τ) spelled order refs
  have enough : piece.body.length ≤ window.left (cursor + 1 + piece.level + 1) := by
    rw [Window.left_ahead inside, body, List.length_append]
    exact Nat.le_add_right _ _
  have found := Reading.upTo_word (marks.closer piece.level) finds body (closed.first rest) enough
  have taken := (finds _).trans (Reading.word_matched (marks.closer piece.level)
    (Window.ahead_of_append body) _)
  have whole : (bodyOn order window : Reading τ) (refs ++ [entryAt cursor piece.level])
      (cursor + 1 + piece.level + 1) = .ok (.matched (cursor + piece.atoms.length) [] []) := by
    refine (Reading.andThen_of_matched found).trans ((Reading.resume_nil _ _ _).trans ?_)
    rw [taken, bytes, List.length_map, length_closer, piece.length_atoms]
    simp only [Nat.add_assoc, Nat.add_left_comm, Nat.reduceAdd]
  rw [string_opened marks inside spelled, Reading.resume_of_matched whole]
  rfl

theorem string_unclosed (opened : window.ahead cursor = bytes (opener n) ++ rest)
    (never : ¬bytes (closer n) <:+: rest) (refs : List Backref) :
    ∃ offset, (stringOn order window : Reading τ) refs cursor = .ok (.failed offset) := by
  have body := ahead_body opened
  have finds := closing_finds (τ := τ) opened order refs
  obtain ⟨offset, missing⟩ := Reading.upTo_absent (marks.closer n) finds (by rwa [body])
    (window.left (cursor + 1 + n + 1))
  refine ⟨offset, ?_⟩
  rw [string_opened marks inside opened]
  exact Reading.resume_of_failed (Reading.andThen_of_failed missing) _

theorem string_unopened (unopened : ∀ n, ¬bytes (opener n) <+: window.ahead cursor)
    (refs : List Backref) :
    ∃ offset, (stringOn order window : Reading τ) refs cursor = .ok (.failed offset) := by
  by_cases bracket : [byte '['] <+: window.ahead cursor
  · obtain ⟨tail, spelled⟩ := prefix_mark.mp bracket
    obtain ⟨n, rest, rfl, ended⟩ := Reading.exists_run (byte '=') tail
    have equals : window.ahead (cursor + 1) = List.replicate n (byte '=') ++ rest := by
      rw [Window.ahead_add, spelled]
      rfl
    have later := Window.ahead_of_append equals
    rw [List.length_replicate] at later
    have missing : ¬[byte '['] <+: window.ahead (cursor + 1 + n) := by
      rw [later]
      intro ⟨tail, here⟩
      apply unopened n
      refine ⟨tail, ?_⟩
      rw [spelled, bytes_opener, ← here]
      simp
    obtain ⟨offset, refused⟩ := mark_refused (τ := τ) marks (by decide) missing
      (refs ++ [entryAt cursor n])
    refine ⟨offset, ?_⟩
    rw [stringOn, Reading.andThen_of_matched (mark_taken marks (by decide) spelled refs),
      Reading.resume_nil, Reading.andThen_of_matched (level_stored marks inside equals ended refs)]
    exact Reading.resume_of_failed (Reading.andThen_of_failed refused) _
  · obtain ⟨offset, refused⟩ := mark_refused (τ := τ) marks (by decide) bracket refs
    exact ⟨offset, Reading.andThen_of_failed refused⟩

theorem string_cases (cursor : Nat) :
    (∃ piece : Piece, piece.Closed ∧ piece.atoms <+: window.ahead cursor) ∨
      ∀ refs, ∃ offset, (stringOn order window : Reading τ) refs cursor = .ok (.failed offset) := by
  by_cases opened : ∃ n, bytes (opener n) <+: window.ahead cursor
  · obtain ⟨n, rest, spelled⟩ := opened
    by_cases occurs : bytes (closer n) <:+: rest
    · obtain ⟨body, back, rfl, closed⟩ := exists_closedBy occurs
      left
      refine ⟨⟨n, body⟩, closed, back, ?_⟩
      rw [← spelled, Piece.atoms, List.append_assoc, List.append_assoc]
    · exact .inr (string_unclosed marks inside spelled.symm occurs)
  · exact .inr (string_unopened marks inside (not_exists.mp opened))

/-! ## Several strings -/

/-- Long strings, each behind a comma, are taken in as many rounds, as far as there are any. -/
theorem rounds_taken {pieces : List Piece} (closed : ∀ piece ∈ pieces, piece.Closed)
    {rounds : Nat} (spelled : window.ahead cursor = behindCommas pieces ++ rest)
    (ended : ∀ tail, rest = byte ',' :: tail → ∀ piece : Piece, piece.Closed → ¬piece.atoms <+: tail)
    (last : Reading τ) (enough : pieces.length < rounds) (refs : List Backref) :
    ((markOn order window ',').andThen (stringOn order window)).greedy last rounds refs cursor =
      .ok (.matched (cursor + (behindCommas pieces).length) [] (entriesFrom (cursor + 1) pieces)) := by
  induction pieces generalizing cursor refs rounds with
  | nil =>
      obtain ⟨rounds, rfl⟩ := Nat.exists_eq_add_one_of_ne_zero (Nat.ne_zero_of_lt enough)
      rw [behindCommas, List.flatMap_nil, List.nil_append] at spelled
      -- The round behind the last string fails: no comma, or no string after it.
      have refused : ∃ offset, ((markOn order window ',').andThen (stringOn order window) :
          Reading τ) refs cursor = .ok (.failed offset) := by
        by_cases comma : [byte ','] <+: window.ahead cursor
        · obtain ⟨tail, here⟩ := prefix_mark.mp comma
          rw [Reading.andThen_of_matched (mark_taken marks (by decide) here refs),
            Reading.resume_nil]
          rcases string_cases marks inside (cursor + 1) with ⟨piece, closed', begins⟩ | missing
          · rw [Window.ahead_add, here] at begins
            exact absurd begins (ended tail (spelled ▸ here) piece closed')
          · exact missing refs
        · obtain ⟨offset, missing⟩ := mark_refused (τ := τ) marks (by decide) comma refs
          exact ⟨offset, Reading.andThen_of_failed missing⟩
      obtain ⟨offset, refused⟩ := refused
      exact Reading.greedy_of_failed refused
  | cons piece pieces ih =>
      obtain ⟨rounds, rfl⟩ := Nat.exists_eq_add_one_of_ne_zero (Nat.ne_zero_of_lt enough)
      rw [List.forall_mem_cons] at closed
      rw [behindCommas_cons, List.cons_append, List.append_assoc] at spelled
      have string : window.ahead (cursor + 1) = piece.atoms ++
          (behindCommas pieces ++ rest) := by
        rw [Window.ahead_add, spelled]
        rfl
      have taken : ((markOn order window ',').andThen (stringOn order window) : Reading τ) refs
          cursor = .ok (.matched (cursor + 1 + piece.atoms.length) []
            [entryAt (cursor + 1) piece.level]) := by
        rw [Reading.andThen_of_matched (mark_taken marks (by decide) spelled refs),
          Reading.resume_nil]
        exact string_closed marks inside closed.1 string refs
      have later := ih closed.2 (Window.ahead_of_append string) (Nat.lt_of_succ_lt_succ enough)
        (refs ++ [entryAt (cursor + 1) piece.level])
      have length : cursor + 1 + piece.atoms.length + (behindCommas pieces).length =
          cursor + (behindCommas (piece :: pieces)).length := by
        rw [behindCommas_cons, List.length_cons, List.length_append]
        omega
      rw [Reading.greedy_of_moved taken (by omega), Reading.resume_of_matched later, length]
      rfl

/-- A list of long strings is taken up to the last one that can be matched, with a comma behind it. -/
theorem list_taken {pieces : List Piece} (nonempty : pieces ≠ [])
    (closed : ∀ piece ∈ pieces, piece.Closed)
    (spelled : window.ahead cursor = joined pieces ++ rest)
    (ended : ∀ tail, rest = byte ',' :: tail → ∀ piece : Piece, piece.Closed → ¬piece.atoms <+: tail)
    (refs : List Backref) :
    (listOn order window : Reading τ) refs cursor =
      .ok (.matched (cursor + (joined pieces).length +
        if rest.head? = some (byte ',') then 1 else 0) [] (entriesFrom cursor pieces)) := by
  obtain ⟨piece, pieces, rfl⟩ := List.exists_cons_of_ne_nil nonempty
  rw [List.forall_mem_cons] at closed
  rw [joined_cons, List.append_assoc] at spelled
  have string := string_closed (τ := τ) marks inside closed.1 spelled refs
  have others := Window.ahead_of_append spelled
  have enough : pieces.length < window.left (cursor + piece.atoms.length) + 1 := by
    have fewer := length_le_behindCommas pieces
    rw [Window.left_ahead inside, others, List.length_append]
    omega
  have further : (furtherOn order window : Reading τ) (refs ++ [entryAt cursor piece.level])
      (cursor + piece.atoms.length) = _ :=
    rounds_taken marks inside closed.2 others ended (.stop .exhausted) enough _
  have behind := Window.ahead_of_append others
  have member : ',' ∈ ['[', '=', ']', ','] := by decide
  -- A comma that nothing follows is taken all the same, by the option behind the rounds.
  have comma : ∀ refs, (markOn order window ',' : Reading τ).optional refs
      (cursor + piece.atoms.length + (behindCommas pieces).length) =
        .ok (.matched (cursor + piece.atoms.length + (behindCommas pieces).length +
          if rest.head? = some (byte ',') then 1 else 0) [] []) := by
    intro refs
    by_cases first : rest.head? = some (byte ',')
    · obtain ⟨tail, rfl⟩ := List.head?_eq_some_iff.mp first
      rw [if_pos first]
      exact Reading.optional_of_matched (mark_taken marks member behind refs)
    · have absent : ¬[byte ','] <+: rest := fun ⟨tail, here⟩ => first (by rw [← here]; rfl)
      obtain ⟨offset, missing⟩ := mark_refused (τ := τ) marks member (by rwa [behind]) refs
      rw [if_neg first]
      exact Reading.optional_of_failed missing
  have later := (Reading.andThen_of_matched further).trans (Reading.resume_of_matched (comma _))
  rw [listOn, Reading.andThen_of_matched string, Reading.resume_of_matched later, joined_cons,
    List.length_append, ← Nat.add_assoc cursor]
  simp only [List.append_nil]
  rfl

end Marked

end Strings

/-! ## Lists in any context -/

open Session

section Matches

variable {τ : Type} {builds : Bool} {start ctx : Context τ} {steps : List (Step UInt8 τ)}
  {attempt : Match UInt8 τ} {refs : List Backref} {trees : List (MarkedTree τ)}

theorem plain_longStrings (attempt : Match UInt8 τ) :
    ∀ inner, attempt.grammar.Uses longStrings inner → inner.isBuilding = false := by
  intro inner uses
  let Plain (part : Matcher UInt8 τ attempt.Rule) : Prop :=
    part.isBuilding = false ∧ ∀ name, part ≠ .rule name
  have plain : longStrings.Within Plain 7 := by
    simp [Matcher.Within, Matcher.parts, Plain, longStrings, longString, closing, Matcher.atom,
      Matcher.isBuilding]
  have ruleless : ∀ name, Plain (.rule name) → (attempt.grammar name).Every Plain :=
    fun name called => absurd rfl (called.2 name)
  exact (uses.of_every ruleless (.of_within plain)).1

theorem succeeds_of_string {place : Nat} (tracks : ctx.Tracks refs trees builds)
    (bounded : place ≤ attempt.limit) (inside : attempt.limit ≤ attempt.source.size)
    (marks : Marks attempt.order) {piece : Piece} (closed : piece.Closed)
    (begins : piece.atoms <+: Window.ahead ⟨attempt.source, attempt.limit⟩ place) :
    ((attempt.trying longString).startingAt place).Succeeds ctx := by
  obtain ⟨rest, spelled⟩ := begins
  have inside' : ((attempt.trying longString).startingAt place).Inside := ⟨bounded, inside⟩
  have read : ((attempt.trying longString).startingAt place).reading refs =
      .ok (.matched (place + piece.atoms.length) [] [entryAt place piece.level]) := by
    rw [← string_closed marks inside closed spelled.symm refs]
    exact congrFun (congrFun (reading_longString _ _ _) refs) place
  exact (Match.succeeds_iff inside' tracks).mpr ⟨_, _, _, read⟩

theorem ended_of_not_succeeds {pieces : List Piece} {rest : List UInt8}
    (tracks : ctx.Tracks refs trees builds) (inside : attempt.Inside) (marks : Marks attempt.order)
    (spelled : Window.ahead ⟨attempt.source, attempt.limit⟩ attempt.cursor = joined pieces ++ rest)
    (last : ∀ tail, rest = byte ',' :: tail →
      ¬((attempt.trying longString).startingAt
        (attempt.cursor + (joined pieces).length + 1)).Succeeds ctx) :
    ∀ tail, rest = byte ',' :: tail → ∀ piece : Piece, piece.Closed → ¬piece.atoms <+: tail := by
  intro tail comma piece closed begins
  apply last tail comma
  have behind := Window.ahead_of_append spelled
  have length := congrArg List.length behind
  rw [Window.length_ahead, comma, List.length_cons] at length
  have bounded := Nat.min_le_left attempt.limit attempt.source.size
  have after : Window.ahead ⟨attempt.source, attempt.limit⟩
      (attempt.cursor + (joined pieces).length + 1) = tail := by
    rw [Window.ahead_add, behind, comma]
    rfl
  exact succeeds_of_string tracks (by dsimp only at length; omega) inside.2 marks closed
    (after ▸ begins)

/-- On every text or tree context, whatever levels are stored, long strings separated by commas are
matched one by one, each up to the first closing bracket of its own level, if no further string
follows behind a comma.  A comma behind the last one is matched as well.  Then one level for each
string has been stored, and nothing else has changed, not even by a further string that was begun. -/
theorem strings_close_at_own_levels (fresh : Fresh builds start) (reached : run steps start = .ok ctx)
    (attempt : Match UInt8 τ) (inside : attempt.Inside) (marks : Marks attempt.order)
    {pieces : List Piece} (nonempty : pieces ≠ []) (closed : ∀ piece ∈ pieces, piece.Closed)
    {rest : List UInt8}
    (spelled : (attempt.source.extract attempt.cursor attempt.limit).toList = joined pieces ++ rest)
    (last : ∀ tail, rest = byte ',' :: tail →
      ¬((attempt.trying longString).startingAt
        (attempt.cursor + (joined pieces).length + 1)).Succeeds ctx) :
    (attempt.trying longStrings).run ctx =
        .ok (.valid attempt.source (attempt.cursor + (joined pieces).length +
            if rest.head? = some (byte ',') then 1 else 0) attempt.limit,
          { ctx with refs := some ⟨(ctx.entries ++ entriesFrom attempt.cursor pieces).toArray⟩ }) ∧
      (entriesFrom attempt.cursor pieces).length = pieces.length := by
  obtain ⟨refs, trees, tracks⟩ := tracks_run reached fresh.tracks
  have ended := ended_of_not_succeeds tracks inside marks spelled last
  have read : (attempt.trying longStrings).reading refs = .ok (.matched (attempt.cursor +
      (joined pieces).length + if rest.head? = some (byte ',') then 1 else 0) []
        (entriesFrom attempt.cursor pieces)) := by
    have spelled' : Window.ahead ⟨attempt.source, attempt.limit⟩ attempt.cursor = _ := spelled
    rw [← list_taken marks inside.2 nonempty closed spelled' ended refs]
    exact congrFun (congrFun (reading_longStrings _ _ _) refs) attempt.cursor
  obtain ⟨⟨span, ctx'⟩, ran, answers⟩ := Match.run_of_read (inside.trying _) tracks read
  have untouched := Match.run_spares tracks ran (plain_longStrings attempt)
  refine ⟨?_, length_entriesFrom _ _⟩
  cases answers with
  | matched tracks' =>
      rw [ran, tracks.entries_eq, ← tracks'.refs_eq, ← untouched.1, ← untouched.2]
      rfl

end Matches

/-- The bytes of `[=[a]]]=],[[b]],[[c]=]`, which begin a third string and do not close it. -/
def severed (order : Comparator UInt8) : Match UInt8 Nat :=
  { byteMatch longStrings #[91, 61, 91, 97, 93, 93, 93, 61, 93, 44, 91, 91, 98, 93, 93, 44, 91, 91,
      99, 93, 61, 93] with order }

theorem strings_close_at_own_levels_severed :
    ∃ start ctx : Context Nat, Fresh true start ∧
      run ([.storeRef level ⟨0, 1⟩] : List (Step UInt8 Nat)) start = .ok ctx ∧
      ((severed .natural).trying longStrings).run ctx =
        .ok (.valid (severed .natural).source 16 (severed .natural).limit,
          { ctx with refs := some ⟨#[⟨level, ⟨0, 1⟩⟩, ⟨level, ⟨1, 2⟩⟩, ⟨level, ⟨11, 11⟩⟩]⟩ }) ∧
      ((severed .caselessByte).trying longStrings).run ctx =
        .ok (.valid (severed .caselessByte).source 16 (severed .caselessByte).limit,
          { ctx with refs := some ⟨#[⟨level, ⟨0, 1⟩⟩, ⟨level, ⟨1, 2⟩⟩, ⟨level, ⟨11, 11⟩⟩]⟩ }) := by
  let ctx : Context Nat := ⟨some ⟨#[⟨level, ⟨0, 1⟩⟩]⟩, some (.empty (.empty 2)), #[]⟩
  let pieces : List Piece := [⟨1, [97, 93, 93]⟩, ⟨0, [98]⟩]
  have reached : run ([.storeRef level ⟨0, 1⟩] : List (Step UInt8 Nat)) smallTree = .ok ctx := rfl
  have closed : ∀ piece ∈ pieces, piece.Closed := by decide
  have spelled : ((severed .natural).source.extract 0 (severed .natural).limit).toList =
      joined pieces ++ [44, 91, 91, 99, 93, 61, 93] := by decide
  have closes : ∀ order, Marks order →
      ((((severed order).trying longString).startingAt 16).run ctx >>= fun answer =>
        .ok answer.1.isValid) = .ok false →
      ((severed order).trying longStrings).run ctx =
        .ok (.valid (severed order).source 16 (severed order).limit,
          { ctx with refs := some ⟨#[⟨level, ⟨0, 1⟩⟩, ⟨level, ⟨1, 2⟩⟩, ⟨level, ⟨11, 11⟩⟩]⟩ }) := by
    intro order marks judged
    have severs : (((severed order).trying longString).startingAt 16).Fails ctx := by
      obtain ⟨⟨span, ctx'⟩, ran, invalid⟩ := Fault.bind_eq_ok.mp judged
      exact ⟨span, ctx', ran, Except.ok.inj invalid⟩
    have inside : (severed order).Inside := ⟨Nat.zero_le _, Nat.le_refl _⟩
    obtain ⟨ran, -⟩ := strings_close_at_own_levels fresh_smallTree reached (severed order) inside
      marks (by decide) closed spelled fun _ _ succeeds => succeeds.not_fails severs
    exact ran
  exact ⟨_, ctx, fresh_smallTree, reached, closes _ marks_natural (by decide +kernel),
    closes _ marks_caselessByte (by decide +kernel)⟩

end PegForest.LongString
