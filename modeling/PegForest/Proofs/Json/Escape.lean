import PegForest.Proofs.Json.Contents

/-!
# What escapes denote

`Denotes` reads the pieces of a string literal off from left to right and says which characters they
may stand for.  Two numbered escapes are one supplementary character when they are the surrogates
that UTF-16 writes it with.  Any other surrogate is a replacement character, and the piece after it
is read as if the surrogate were not there.

Pieces denote exactly one list of characters, the one that unescaping the literal gives.
-/

set_option autoImplicit false

namespace PegForest.Json

namespace Piece

def Surrogates (high low : Nat) (c : Char) : Prop :=
  0x10000 ≤ c.toNat ∧ high = 0xD800 + (c.toNat - 0x10000) / 0x400 ∧
    low = 0xDC00 + (c.toNat - 0x10000) % 0x400

inductive Denotes : List Piece → List Char → Prop where
  | nil : Denotes [] []
  | plain {c : Char} {allowed : [c] ∈ Syntax.unescaped} {pieces : List Piece} {cs : List Char}
      (later : Denotes pieces cs) : Denotes (.plain c allowed :: pieces) (c :: cs)
  | short {mark : Char} {listed : mark ∈ ['"', '\\', '/', 'b', 'f', 'n', 'r', 't']}
      {pieces : List Piece} {cs : List Char} (later : Denotes pieces cs) :
      Denotes (.short mark listed :: pieces) (named mark :: cs)
  | scalar {digits : List Char} {four : digits ∈ Syntax.hexDigit ^ 4} {c : Char}
      {pieces : List Piece} {cs : List Char} (number : unitOf digits = c.toNat)
      (later : Denotes pieces cs) : Denotes (.code digits four :: pieces) (c :: cs)
  | pair {high low : List Char} {four : high ∈ Syntax.hexDigit ^ 4}
      {four' : low ∈ Syntax.hexDigit ^ 4} {c : Char} {pieces : List Piece} {cs : List Char}
      (surrogates : Surrogates (unitOf high) (unitOf low) c) (later : Denotes pieces cs) :
      Denotes (.code high four :: .code low four' :: pieces) (c :: cs)
  | lone {digits : List Char} {four : digits ∈ Syntax.hexDigit ^ 4} {pieces : List Piece}
      {cs : List Char} (surrogate : 0xD800 ≤ unitOf digits ∧ unitOf digits < 0xE000)
      (alone : ∀ low four' rest c, pieces = .code low four' :: rest →
        ¬Surrogates (unitOf digits) (unitOf low) c)
      (later : Denotes pieces cs) : Denotes (.code digits four :: pieces) ('\uFFFD' :: cs)

/-! ## Surrogates -/

theorem scalar_bounds (c : Char) : c.toNat < 0xD800 ∨ 0xE000 ≤ c.toNat ∧ c.toNat < 0x110000 := by
  have valid : c.toNat < 0xD800 ∨ 0xDFFF < c.toNat ∧ c.toNat < 0x110000 := c.valid
  omega

theorem toNat_ofNat {n : Nat} (valid : n < 0xD800 ∨ 0xE000 ≤ n ∧ n < 0x110000) :
    (Char.ofNat n).toNat = n := by
  have valid' : n.isValidChar := valid.imp id fun above => ⟨by omega, above.2⟩
  rw [Char.ofNat, dif_pos valid']
  rfl

/-- Two units are surrogates of a character exactly when they are paired, and then of one. -/
theorem surrogates_iff {high low : Nat} {c : Char} :
    Surrogates high low c ↔ Paired high low ∧
      c = Char.ofNat (0x10000 + (high - 0xD800) * 0x400 + (low - 0xDC00)) := by
  have bounds := scalar_bounds c
  constructor
  · intro ⟨supplementary, leading, trailing⟩
    refine ⟨⟨by omega, by omega⟩, ?_⟩
    have value : 0x10000 + (high - 0xD800) * 0x400 + (low - 0xDC00) = c.toNat := by omega
    rw [value, Char.ofNat_toNat]
  · intro ⟨⟨leading, trailing⟩, same⟩
    have value : c.toNat = 0x10000 + (high - 0xD800) * 0x400 + (low - 0xDC00) := by
      rw [same, toNat_ofNat]
      omega
    exact ⟨by omega, by omega, by omega⟩

theorem unitOf_lt {digits : List Char} (four : digits ∈ Syntax.hexDigit ^ 4) :
    unitOf digits < 0x10000 := by
  rw [Scan.hexDigit_language] at four
  obtain ⟨length, hex⟩ := mem_letter_pow.mp four
  obtain ⟨w, x, y, z, rfl⟩ := List.length_eq_four.mp length
  simp only [List.forall_mem_cons] at hex
  have first := hexDigitValue_lt hex.1
  have second := hexDigitValue_lt hex.2.1
  have third := hexDigitValue_lt hex.2.2.1
  have fourth := hexDigitValue_lt hex.2.2.2.1
  simp only [unitOf, List.foldl_cons, List.foldl_nil]
  omega

/-! ## One reading -/

theorem contents_alone {digits : List Char} {four : digits ∈ Syntax.hexDigit ^ 4}
    {pieces : List Piece}
    (alone : ∀ low four' rest, pieces = .code low four' :: rest →
      ¬Paired (unitOf digits) (unitOf low)) :
    contents (.code digits four :: pieces) = single (unitOf digits) :: contents pieces := by
  cases pieces with
  | nil => rfl
  | cons piece rest =>
      cases piece with
      | plain c allowed => rfl
      | short mark listed => rfl
      | code low four' => rw [contents, if_neg (alone low four' rest rfl)]

theorem Denotes.single {digits : List Char} {four : digits ∈ Syntax.hexDigit ^ 4}
    {pieces : List Piece} {cs : List Char}
    (alone : ∀ low four' rest, pieces = .code low four' :: rest →
      ¬Paired (unitOf digits) (unitOf low))
    (later : Denotes pieces cs) :
    Denotes (.code digits four :: pieces) (Piece.single (unitOf digits) :: cs) := by
  have bound := unitOf_lt four
  rw [Piece.single]
  by_cases surrogate : 0xD800 ≤ unitOf digits ∧ unitOf digits < 0xE000
  · rw [if_pos surrogate]
    refine .lone surrogate ?_ later
    intro low four' rest c same surrogates
    exact alone low four' rest same (surrogates_iff.mp surrogates).1
  · rw [if_neg surrogate]
    exact .scalar (toNat_ofNat (by omega)).symm later

theorem denotes_contents (pieces : List Piece) : Denotes pieces (contents pieces) := by
  induction pieces using contents.induct with
  | case1 => exact .nil
  | case2 c allowed rest ih => exact .plain ih
  | case3 mark listed rest ih => exact .short ih
  | case4 high four low four' rest paired ih =>
      rw [contents, if_pos paired]
      exact .pair (surrogates_iff.mpr ⟨paired, rfl⟩) ih
  | case5 high four low four' rest unpaired ih =>
      have alone : ∀ digits four'' rest', Piece.code low four' :: rest = .code digits four'' :: rest' →
          ¬Paired (unitOf high) (unitOf digits) := by
        intro _ _ _ same
        cases same
        exact unpaired
      rw [contents_alone alone]
      exact .single alone ih
  | case6 digits four rest other ih =>
      have alone : ∀ low four' rest', rest = .code low four' :: rest' →
          ¬Paired (unitOf digits) (unitOf low) :=
        fun low four' rest' same => (other low four' rest' same).elim
      rw [contents_alone alone]
      exact .single alone ih

theorem Denotes.eq_contents {pieces : List Piece} {cs : List Char} (denotes : Denotes pieces cs) :
    cs = contents pieces := by
  induction denotes with
  | nil => rfl
  | plain _ ih => rw [ih, contents]
  | short _ ih => rw [ih, contents]
  | @scalar digits four c pieces _ number _ ih =>
      have bounds := scalar_bounds c
      have alone : ∀ low four' rest, pieces = .code low four' :: rest →
          ¬Paired (unitOf digits) (unitOf low) := by
        intro _ _ _ _ paired
        have surrogate := paired.1
        omega
      rw [contents_alone alone, ih, Piece.single, if_neg (by omega), number, Char.ofNat_toNat]
  | pair surrogates _ ih =>
      obtain ⟨paired, same⟩ := surrogates_iff.mp surrogates
      rw [ih, contents, if_pos paired, same]
  | lone surrogate alone _ ih =>
      rw [contents_alone, ih, Piece.single, if_pos surrogate]
      intro low four' rest same paired
      exact alone low four' rest _ same (surrogates_iff.mpr ⟨paired, rfl⟩)

end Piece

/-- Unescaping a literal gives the one text that its pieces denote.  The bytes written on the way are
those of that text, so the strict reader takes them too and nothing is replaced.  A numbered unit
is read from its four digits, whatever bytes follow them. -/
theorem unescape_denotes (pieces : List Piece) :
    ∃ cs : List Char, (∀ ds, Piece.Denotes pieces ds ↔ ds = cs) ∧
      unescape (encodeAll (Piece.literal pieces)) = String.ofList cs ∧
      write (units (unquote (encodeAll (Piece.literal pieces)))) = encodeAll cs ∧
      Text.Utf8.decode? (write (units (unquote (encodeAll (Piece.literal pieces))))) =
        some (unescape (encodeAll (Piece.literal pieces))) ∧
      ∀ digits four rest, units (encodeAll (Piece.code digits four).text ++ rest) =
        .code (Piece.unitOf digits) :: units rest := by
  refine ⟨Piece.contents pieces, ?_, unescape_literal pieces, write_literal pieces, ?_, ?_⟩
  · intro ds
    constructor
    · exact Piece.Denotes.eq_contents
    · intro same
      rw [same]
      exact Piece.denotes_contents pieces
  · rw [write_literal, unescape_literal, Text.Utf8.decode?, Text.Utf8.decodeFrom_encodeAll,
      Option.map_some]
  · intro digits four rest
    exact units_code_append four rest

example : unescape (encodeAll ['"', '\\', 'u', 'd', '8', '3', 'd', '\\', 'u', 'D', '8', '3', 'D',
    '\\', 'u', 'D', 'E', '0', '0', '"']) = "\uFFFD😀" := by
  decide +kernel

end PegForest.Json
