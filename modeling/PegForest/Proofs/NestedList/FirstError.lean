import PegForest.Proofs.Isolation
import PegForest.Proofs.NestedList.RoundTrip
import PegForest.Proofs.Session.Tally

/-!
# Where nested lists are refused

The error for a text that is no list points at the first byte that no list has there: the bytes before
it can be prolonged to a list, and with it they can not.  For this the characters in front, where the
match gets stuck, are looked at as bytes.  They are ASCII characters, since phrases are, and what
follows them is an ASCII character too or begins with a byte that no phrase has.

When it is the grammar that fails, its node takes everything back, and the counts of the forest say
so: all nodes that were created have been taken back.
-/

set_option autoImplicit false

namespace PegForest.NestedList

open Text.Ascii

variable {c : Char} {cs front rest : List Char} {ctx ctx' : Context Tag} {refs : List Backref}
  {trees : List (MarkedTree Tag)}

/-- The bytes can be prolonged to a sentence. -/
def Extendable (bytes : List UInt8) : Prop :=
  ∃ w, Derives .list w ∧ bytes <+: encodeAll w

/-- The offset is the length of the longest part at the front of the bytes that can be prolonged to a
sentence. -/
structure FirstOffence (bytes : List UInt8) (offset : Nat) : Prop where
  inside : offset ≤ bytes.length
  begins : Extendable (bytes.take offset)
  ends : offset = bytes.length ∨ ¬Extendable (bytes.take (offset + 1))
  longest : ∀ length ≤ bytes.length, Extendable (bytes.take length) → length ≤ offset

/-! ## From characters to bytes -/

theorem map_ofNat_bytes (ascii : ∀ c ∈ cs, c.toNat < 128) :
    (bytes cs).map (fun b => Char.ofNat b.toNat) = cs := by
  rw [bytes, List.map_map]
  refine (List.map_congr_left fun c member => ?_).trans (List.map_id cs)
  rw [Function.comp_apply, Reading.toNat_byte (ascii c member), Char.ofNat_toNat, id]

theorem Extendable.mono {short long : List UInt8} (extendable : Extendable long)
    (begins : short <+: long) : Extendable short := by
  obtain ⟨w, derived, prolonged⟩ := extendable
  exact ⟨w, derived, begins.trans prolonged⟩

theorem Opens.ascii (opens : Opens .list front) : ∀ c ∈ front, c.toNat < 128 := by
  obtain ⟨phrase, begins⟩ := opens
  exact fun c member => phrase.ascii_text c (begins.subset member)

theorem Opens.extendable (opens : Opens .list front) : Extendable (encodeAll front) := by
  obtain ⟨w, derived, rest, whole⟩ := opens_iff.mp opens
  exact ⟨w, derived, encodeAll rest, by rw [← encodeAll_append, whole]⟩

theorem opens_of_extendable (ascii : ∀ c ∈ front, c.toNat < 128)
    (extendable : Extendable ((encodeAll (front ++ c :: rest)).take (front.length + 1))) :
    Opens .list (front ++ [c]) := by
  obtain ⟨w, derived, begins⟩ := extendable
  obtain ⟨phrase, rfl⟩ := derives_iff.mp derived
  obtain ⟨b, more, encoded⟩ := List.exists_cons_of_ne_nil (String.utf8EncodeChar_ne_nil (c := c))
  have head : (encodeAll (front ++ c :: rest)).take (front.length + 1) = bytes front ++ [b] := by
    have length : (bytes front).length = front.length := List.length_map _
    rw [encodeAll_append, encodeAll_cons, encoded, encodeAll_ascii ascii, ← length,
      List.take_length_add_append, List.cons_append, List.take_succ_cons, List.take_zero]
  rw [head, encodeAll_ascii phrase.ascii_text] at begins
  have small : b.toNat < 128 := by
    have member := begins.subset (List.mem_append_right (bytes front) (List.mem_singleton_self b))
    obtain ⟨d, inside, rfl⟩ := List.mem_map.mp member
    rw [Reading.toNat_byte (phrase.ascii_text d inside)]
    exact phrase.ascii_text d inside
  have narrow : c.toNat < 128 := by
    by_contra wide
    have large := encode_wide (Nat.le_of_not_lt wide) b (by rw [encoded]; exact List.mem_cons_self)
    omega
  rw [encode_ascii narrow] at encoded
  obtain ⟨rfl, -⟩ := List.cons.inj encoded
  have ascii' : ∀ d ∈ front ++ [c], d.toNat < 128 :=
    List.forall_mem_append.mpr ⟨ascii, List.forall_mem_singleton.mpr narrow⟩
  have joined : bytes front ++ [byte c] = bytes (front ++ [c]) := by
    rw [bytes, bytes, List.map_append]
    rfl
  have characters := begins.map fun b => Char.ofNat b.toNat
  rw [joined, map_ofNat_bytes ascii', map_ofNat_bytes phrase.ascii_text] at characters
  exact ⟨phrase, characters⟩

theorem Stuck.firstOffence (stuck : Stuck .list front rest) :
    FirstOffence (encodeAll (front ++ rest)) front.length := by
  have ascii := stuck.opens.ascii
  have length : (encodeAll front).length = front.length := by
    rw [encodeAll_ascii ascii, bytes, List.length_map]
  have ends : front.length = (encodeAll (front ++ rest)).length ∨
      ¬Extendable ((encodeAll (front ++ rest)).take (front.length + 1)) := by
    cases rest with
    | nil => exact .inl (by rw [List.append_nil, length])
    | cons c rest =>
        exact .inr fun extendable => stuck.blocked c rfl (opens_of_extendable ascii extendable)
  refine ⟨?_, ?_, ends, ?_⟩
  · rw [encodeAll_append, List.length_append, length]
    exact Nat.le_add_right _ _
  · rw [encodeAll_append, ← length, List.take_left]
    exact stuck.opens.extendable
  · intro count inside extendable
    by_contra beyond
    rcases ends with atEnd | blocked
    · omega
    · exact blocked (extendable.mono (List.take_prefix_take_left (by omega)))

/-! ## What a failure leaves behind -/

theorem settles_list (input : Array UInt8) :
    ((listTask input).action ⟨input, input.size⟩).Settles := by
  let items : Matcher UInt8 Tag Rule :=
    .list (.atom (byte '(')) (element .list) (.atom (byte ',')) (.atom (byte ')'))
  have inner : (grammar.run .natural input.size ⟨input, input.size⟩ items).Realizes
      (grammar.reading .natural input.size ⟨input, input.size⟩ items) :=
    grammar.run_realizes input.size items
  exact inner.attempt_settles.node (some .list) false

theorem forest_of_unexpected (tracks : ctx.Tracks refs trees true) {text : String} {range : Range}
    {nonterminal detail : String}
    (parsed : parse ctx text = .ok (.error (.unexpected range nonterminal detail), ctx')) :
    ∃ forest, ctx'.forest = some forest ∧ forest.size = 0 ∧ forest.created = forest.recycled := by
  rw [parse_eq] at parsed
  obtain ⟨after, acted, rfl⟩ := Session.failed_of_unexpected parsed
  change (listTask _).action _ ctx.reset 0 = _ at acted
  have tracks' := settles_list _ true ctx.reset [] [] 0 tracks.reset _ acted range.start rfl
  have balanced := (listTask _).action_keeps Context.kept_balanced (Nat.le_refl _)
    (Nat.zero_le _) ctx.balanced_reset _ acted
  cases tracks' with
  | tree represents _ =>
      have size := represents.size_eq
      have counts := balanced _ rfl
      rw [Forest.Balanced, size] at counts
      exact ⟨_, rfl, size, counts⟩

/-- Every error points at the first offending byte, or at the end of the text where more is missing,
and a failure of the grammar leaves nothing in the context. -/
theorem parse_firstOffence {α : Type} [Atom α] {capacity : Nat} {start ctx : Context Tag}
    {steps : List (Session.Step α Tag)} (opened : Context.tree capacity = .ok start)
    (reached : Session.run steps start = .ok ctx) (text : String) :
    ∃ answer ctx', parse ctx text = .ok (answer, ctx') ∧
      ((∃ error, answer = .error error) ↔ ¬Derives .list text.toList) ∧
      ∀ error, answer = .error error →
        FirstOffence (Text.Utf8.encode text).toList error.offset ∧
        ∀ range nonterminal detail, error = .unexpected range nonterminal detail →
          ∃ forest, ctx'.forest = some forest ∧ forest.size = 0 ∧
            forest.created = forest.recycled := by
  have fresh : Session.Fresh true start := .tree capacity opened
  obtain ⟨refs, trees, tracks⟩ := Session.tracks_run reached fresh.tracks
  by_cases spelled : ∃ phrase : Phrase .list, phrase.text = text.toList
  · obtain ⟨phrase, spells⟩ := spelled
    obtain ⟨size, ctx', -, parsed⟩ := parse_of_phrase tracks phrase spells
    refine ⟨_, ctx', parsed, ?_, ?_⟩
    · exact iff_of_false (by simp) (not_not.mpr (derives_iff.mpr ⟨phrase, spells⟩))
    · intro error refused
      cases refused
  · obtain ⟨error, ctx', front, rest, parsed, split, stuck, offset⟩ :=
      parse_stuck tracks (not_exists.mp spelled)
    refine ⟨_, ctx', parsed, iff_of_true ⟨error, rfl⟩ (mt derives_iff.mp spelled), ?_⟩
    intro _ same
    cases same
    constructor
    · rw [toList_encode, split, offset]
      exact stuck.firstOffence
    · intro range nonterminal detail failed
      subst failed
      exact forest_of_unexpected tracks parsed

theorem parse_firstOffence_wide :
    ∃ start ctx : Context Tag, Context.tree 2 = .ok start ∧ Session.run [earlier] start = .ok ctx ∧
      ∃ answer ctx', parse ctx "(a,(b,é" = .ok (answer, ctx') ∧
        ((∃ error, answer = .error error) ↔ ¬Derives .list "(a,(b,é".toList) ∧
        ∀ error, answer = .error error →
          FirstOffence (Text.Utf8.encode "(a,(b,é").toList error.offset ∧
          ∀ range nonterminal detail, error = .unexpected range nonterminal detail →
            ∃ forest, ctx'.forest = some forest ∧ forest.size = 0 ∧
              forest.created = forest.recycled := by
  obtain ⟨ctx, reached⟩ := earlier_returns
  exact ⟨_, ctx, Session.opened_smallTree, reached,
    parse_firstOffence Session.opened_smallTree reached "(a,(b,é"⟩

end PegForest.NestedList
