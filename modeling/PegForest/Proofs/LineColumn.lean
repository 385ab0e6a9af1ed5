import Mathlib.Data.List.Induction
import Mathlib.Data.List.Basic
import Mathlib.Data.Prod.Lex
import Mathlib.Order.Monotone.Defs
import Mathlib.Order.Interval.Set.Defs
import PegForest.Input.Line
import PegForest.Parser.Error

/-!
# Lines and columns are coordinates

The line counts the newlines before an offset and the column is measured from the last of them: two
scans that know nothing of each other.  They agree because both cut the bytes before the offset in
the same place, behind the last newline.  So an offset is given back by its line and its column, and
of two offsets the later one has the later line, or the later column in the same line.
-/

set_option autoImplicit false

namespace PegForest

/-- The offset at which a line begins: behind the newline that ends the line before it. -/
def lineStart (source : Array UInt8) : (line : Nat) → Nat
  | line + 2 => source.toList.idxOfNth newline line + 1
  | _ => 0

/-- A line and a column are those of an offset. -/
structure Locates (source : Array UInt8) (offset : Nat) (place : Nat × Nat) : Prop where
  line : place.1 = (source.extract 0 offset).count newline + 1
  column : 1 ≤ place.2
  offset_eq : offset = lineStart source place.1 + place.2 - 1
  unbroken : ∀ i, lineStart source place.1 ≤ i → i < offset → source[i]? ≠ some newline

variable {source : Array UInt8} {front last back : List UInt8} {b : UInt8}
  {offset offset' : Nat} {place place' : Nat × Nat}

/-! ## The last line -/

theorem lineColumnAfter_newline (before : List UInt8) :
    lineColumnAfter (before ++ [newline]) = ((lineColumnAfter before).1 + 1, 1) := by
  simp [lineColumnAfter]

theorem lineColumnAfter_other (before : List UInt8) (other : b ≠ newline) :
    lineColumnAfter (before ++ [b]) =
      ((lineColumnAfter before).1, (lineColumnAfter before).2 + 1) := by
  simp [lineColumnAfter, other]

def WholeLines (front : List UInt8) : Prop :=
  front = [] ∨ ∃ earlier, front = earlier ++ [newline]

theorem exists_lastLine (before : List UInt8) :
    ∃ front last, before = front ++ last ∧ WholeLines front ∧ newline ∉ last ∧
      lineColumnAfter before = (front.count newline + 1, last.length + 1) := by
  induction before using List.reverseRecOn with
  | nil => exact ⟨[], [], rfl, .inl rfl, List.not_mem_nil, rfl⟩
  | append_singleton before b ih =>
      obtain ⟨front, last, split, ended, unbroken, scanned⟩ := ih
      by_cases same : b = newline
      · subst same
        refine ⟨before ++ [newline], [], (List.append_nil _).symm, .inr ⟨before, rfl⟩,
          List.not_mem_nil, ?_⟩
        rw [lineColumnAfter_newline, List.count_append, List.count_singleton_self]
        rfl
      · refine ⟨front, last ++ [b], by rw [split, List.append_assoc], ended, ?_, ?_⟩
        · simpa [unbroken] using Ne.symm same
        · rw [lineColumnAfter_other before same, scanned, List.length_append, List.length_singleton]

theorem lineStart_of_wholeLines (ended : WholeLines front) (split : source.toList = front ++ back) :
    lineStart source (front.count newline + 1) = front.length := by
  rcases ended with rfl | ⟨earlier, rfl⟩
  · rfl
  · have inside : earlier.length < source.toList.length := by simp [split]
    have here : source.toList[earlier.length] = newline := by simp [split]
    have counted : source.toList.countBefore newline earlier.length = earlier.count newline := by
      rw [List.countBefore_eq_count_take, split, List.append_assoc, List.take_left]
    have found : source.toList.idxOfNth newline (earlier.count newline) = earlier.length := by
      rw [← counted]
      exact List.idxOfNth_countBefore_of_lt_length_of_beq (beq_iff_eq.mpr here)
    rw [List.count_append, List.count_singleton_self, lineStart, found, List.length_append,
      List.length_singleton]

theorem locates_of_split (split : source.toList = (front ++ last) ++ back) (ended : WholeLines front)
    (unbroken : newline ∉ last) :
    Locates source (front ++ last).length (front.count newline + 1, last.length + 1) := by
  have start := lineStart_of_wholeLines ended (split.trans (List.append_assoc _ _ _))
  constructor
  · rw [← Array.count_toList, Array.toList_extract, List.extract_eq_take_drop, split, Nat.sub_zero,
      List.drop_zero, List.take_left, List.count_append, List.count_eq_zero.mpr unbroken]
  · exact Nat.le_add_left 1 _
  · rw [start, List.length_append]
    rfl
  · intro i lower upper found
    rw [start] at lower
    rw [← Array.getElem?_toList, split, List.getElem?_append_left upper,
      List.getElem?_append_right lower] at found
    exact unbroken (List.mem_of_getElem? found)

theorem locates_lineColumn (inside : offset ≤ source.size) :
    Locates source offset (lineColumn source offset) := by
  obtain ⟨front, last, split, ended, unbroken, scanned⟩ :=
    exists_lastLine (source.toList.take offset)
  have length : (front ++ last).length = offset := by
    rw [← split, List.length_take, Array.length_toList, Nat.min_eq_left inside]
  have whole : source.toList = (front ++ last) ++ source.toList.drop offset := by
    rw [← split, List.take_append_drop]
  have locates := locates_of_split whole ended unbroken
  rwa [length, ← scanned] at locates

/-! ## The order of places -/

theorem Locates.line_le (locates : Locates source offset place)
    (locates' : Locates source offset' place') (earlier : offset ≤ offset') :
    place.1 ≤ place'.1 := by
  rw [locates.line, locates'.line, ← Array.count_toList, ← Array.count_toList,
    Array.toList_extract, Array.toList_extract]
  exact Nat.succ_le_succ ((List.take_sublist_take_left earlier).count_le newline)

theorem Locates.lt (locates : Locates source offset place)
    (locates' : Locates source offset' place') (earlier : offset < offset') :
    toLex place < toLex place' := by
  rw [Prod.Lex.toLex_lt_toLex]
  rcases Nat.eq_or_lt_of_le (locates.line_le locates' (Nat.le_of_lt earlier)) with same | later
  · have behind := locates.offset_eq
    have behind' := locates'.offset_eq
    have column' := locates'.column
    rw [same] at behind
    exact .inr ⟨same, by omega⟩
  · exact .inl later

theorem strictMonoOn_lineColumn (source : Array UInt8) :
    StrictMonoOn (fun offset => toLex (lineColumn source offset)) (Set.Iic source.size) := by
  intro offset inside offset' inside' earlier
  exact (locates_lineColumn inside).lt (locates_lineColumn inside') earlier

theorem lineColumn_beyond (beyond : source.size ≤ offset) :
    lineColumn source offset = lineColumn source source.size := by
  rw [lineColumn, lineColumn, ← Array.length_toList, List.take_length, List.take_of_length_le]
  rwa [Array.length_toList]

/-- The line and the column of an error are coordinates of the offset at which it points, and offsets
beyond the end of the source have those of the end. -/
theorem lineColumn_exact (source : Array UInt8) :
    (∀ error : ParseError, error.offset ≤ source.size →
      Locates source error.offset (lineColumn source error.offset)) ∧
    StrictMonoOn (fun offset => toLex (lineColumn source offset)) (Set.Iic source.size) ∧
    ∀ error : ParseError, source.size < error.offset →
      lineColumn source error.offset = lineColumn source source.size :=
  ⟨fun _ inside => locates_lineColumn inside, strictMonoOn_lineColumn source,
    fun _ beyond => lineColumn_beyond (Nat.le_of_lt beyond)⟩

theorem lineColumn_exact_newline :
    Locates #[97, 10, 98] 1 (1, 2) ∧ Locates #[97, 10, 98] 2 (2, 1) ∧
      toLex (lineColumn #[97, 10, 98] 1) < toLex (lineColumn #[97, 10, 98] 2) ∧
      lineColumn #[97, 10, 98] 9 = (2, 2) := by
  obtain ⟨locates, increasing, beyond⟩ := lineColumn_exact #[97, 10, 98]
  have inside : (1 : Nat) ∈ Set.Iic (#[97, 10, 98] : Array UInt8).size := Nat.le_of_ble_eq_true rfl
  have inside' : (2 : Nat) ∈ Set.Iic (#[97, 10, 98] : Array UInt8).size := Nat.le_of_ble_eq_true rfl
  exact ⟨locates (.trailing ⟨1, 3⟩) (by decide), locates (.trailing ⟨2, 3⟩) (by decide),
    increasing inside inside' Nat.one_lt_two, beyond (.trailing ⟨9, 10⟩) (by decide)⟩

end PegForest
