import Mathlib.Data.List.Basic
import PegForest.Text.Ascii
import PegForest.Text.Utf8

/-!
# Encoded characters

The bytes of a text are those of its characters, one character after another.  A character of ASCII
is one byte, and every byte of any other character lies outside ASCII.  Reading the bytes back gives
the characters, also for the reader that replaces what is broken: nothing is.
-/

set_option autoImplicit false

namespace PegForest

open Text.Ascii

def encodeAll (cs : List Char) : List UInt8 :=
  cs.flatMap String.utf8EncodeChar

theorem encodeAll_cons (c : Char) (cs : List Char) :
    encodeAll (c :: cs) = String.utf8EncodeChar c ++ encodeAll cs :=
  List.flatMap_cons

theorem encodeAll_append (cs ds : List Char) :
    encodeAll (cs ++ ds) = encodeAll cs ++ encodeAll ds :=
  List.flatMap_append

theorem encode_ascii {c : Char} (ascii : c.toNat < 128) : String.utf8EncodeChar c = [byte c] := by
  have small : c.val.toNat ≤ 0x7f := by
    unfold Char.toNat at ascii
    omega
  exact if_pos small

theorem encodeAll_ascii {cs : List Char} (ascii : ∀ c ∈ cs, c.toNat < 128) :
    encodeAll cs = bytes cs := by
  induction cs with
  | nil => rfl
  | cons c cs ih =>
      rw [List.forall_mem_cons] at ascii
      rw [encodeAll_cons, encode_ascii ascii.1, ih ascii.2]
      rfl

theorem encode_wide {c : Char} (wide : 128 ≤ c.toNat) :
    ∀ b ∈ String.utf8EncodeChar c, 128 ≤ b.toNat := by
  unfold Char.toNat at wide
  have large : ¬c.val.toNat ≤ 0x7f := by omega
  unfold String.utf8EncodeChar
  simp only [if_neg large]
  split
  · simp only [List.forall_mem_cons, UInt8.toNat_ofNat']
    refine ⟨by omega, by omega, by simp⟩
  · split
    · simp only [List.forall_mem_cons, UInt8.toNat_ofNat']
      refine ⟨by omega, by omega, by omega, by simp⟩
    · simp only [List.forall_mem_cons, UInt8.toNat_ofNat']
      refine ⟨by omega, by omega, by omega, by omega, by simp⟩

theorem length_le_encodeAll (cs : List Char) : cs.length ≤ (encodeAll cs).length := by
  induction cs with
  | nil => exact Nat.le_refl 0
  | cons c cs ih =>
      have some_byte := List.length_pos_iff.mpr (String.utf8EncodeChar_ne_nil (c := c))
      rw [encodeAll_cons, List.length_append, List.length_cons]
      omega

theorem toList_encode (text : String) : (Text.Utf8.encode text).toList = encodeAll text.toList := by
  have bytes : text.toByteArray = text.toList.utf8Encode := String.utf8Encode_toList.symm
  rw [Text.Utf8.encode, String.toUTF8_eq_toByteArray, bytes, List.utf8Encode,
    List.toList_data_toByteArray]
  rfl

/-! ## Reading encoded characters -/

namespace Text.Utf8

theorem start_ascii {b : UInt8} (ascii : b.toNat < 128) : start b = .complete (Char.ofNat b.toNat) := by
  have small : b < 0x80 := UInt8.lt_iff_toNat_lt.mpr ascii
  rw [start, if_pos small]

theorem start_two {lead : Nat} (low : 2 ≤ lead) (high : lead < 32) :
    start (UInt8.ofNat (lead + 192)) = .partway ⟨1, 0x80, 0xBF, lead⟩ := by
  have place : (UInt8.ofNat (lead + 192)).toNat = lead + 192 := by
    rw [UInt8.toNat_ofNat']
    omega
  unfold start
  simp only [UInt8.lt_iff_toNat_lt, UInt8.le_iff_toNat_le, place, UInt8.reduceToNat]
  rw [if_neg (by omega), if_pos (by omega), Nat.add_sub_cancel]

/-- The first of three bytes and the bounds on the second: no character is written longer than it
has to be, and there are no surrogates. -/
theorem start_three (lead second : Nat) (high : lead < 16) (within : second < 64)
    (shortest : lead = 0 → 32 ≤ second) (scalar : lead = 13 → second < 32) :
    ∃ low high : UInt8, start (UInt8.ofNat (lead + 224)) = .partway ⟨2, low, high, lead⟩ ∧
      low.toNat ≤ second + 128 ∧ second + 128 ≤ high.toNat := by
  have place : (UInt8.ofNat (lead + 224)).toNat = lead + 224 := by
    rw [UInt8.toNat_ofNat']
    omega
  unfold start
  simp only [UInt8.lt_iff_toNat_lt, UInt8.le_iff_toNat_le, ← UInt8.toNat_inj, place,
    UInt8.reduceToNat]
  rw [if_neg (by omega), if_neg (by omega)]
  by_cases least : lead = 0
  · subst least
    exact ⟨0xA0, 0xBF, rfl, by have := shortest rfl; simp; omega, by simp; omega⟩
  · rw [if_neg (by omega)]
    by_cases surrogates : lead = 13
    · subst surrogates
      exact ⟨0x80, 0x9F, rfl, by simp, by have := scalar rfl; simp; omega⟩
    · rw [if_neg (by omega), if_pos (by omega), Nat.add_sub_cancel]
      exact ⟨0x80, 0xBF, rfl, by simp, by simp; omega⟩

theorem start_four (lead second : Nat) (within : second < 64) (shortest : lead = 0 → 16 ≤ second)
    (last : lead < 4 ∨ lead = 4 ∧ second < 16) :
    ∃ low high : UInt8, start (UInt8.ofNat (lead + 240)) = .partway ⟨3, low, high, lead⟩ ∧
      low.toNat ≤ second + 128 ∧ second + 128 ≤ high.toNat := by
  have place : (UInt8.ofNat (lead + 240)).toNat = lead + 240 := by
    rw [UInt8.toNat_ofNat']
    omega
  unfold start
  simp only [UInt8.lt_iff_toNat_lt, UInt8.le_iff_toNat_le, ← UInt8.toNat_inj, place,
    UInt8.reduceToNat]
  rw [if_neg (by omega), if_neg (by omega), if_neg (by omega), if_neg (by omega), if_neg (by omega)]
  by_cases least : lead = 0
  · subst least
    exact ⟨0x90, 0xBF, rfl, by have := shortest rfl; simp; omega, by simp; omega⟩
  · rw [if_neg (by omega)]
    by_cases most : lead = 4
    · subst most
      exact ⟨0x80, 0x8F, rfl, by simp, by simp; omega⟩
    · rw [if_pos (by omega), Nat.add_sub_cancel]
      exact ⟨0x80, 0xBF, rfl, by simp, by simp; omega⟩

theorem resume_within {p : Pending} {next : Nat} (within : next < 64)
    (low : p.low.toNat ≤ next + 128) (high : next + 128 ≤ p.high.toNat) :
    resume p (UInt8.ofNat (next + 128)) =
      if p.owed ≤ 1 then .complete (Char.ofNat (p.value * 64 + next))
      else .partway ⟨p.owed - 1, 0x80, 0xBF, p.value * 64 + next⟩ := by
  have place : (UInt8.ofNat (next + 128)).toNat = next + 128 := by
    rw [UInt8.toNat_ofNat']
    omega
  unfold resume
  rw [if_pos (by rw [UInt8.le_iff_toNat_le, UInt8.le_iff_toNat_le, place]; exact ⟨low, high⟩), place,
    Nat.add_sub_cancel]

theorem resume_any {owed value : Nat} {next : Nat} (within : next < 64) :
    resume ⟨owed, 0x80, 0xBF, value⟩ (UInt8.ofNat (next + 128)) =
      if owed ≤ 1 then .complete (Char.ofNat (value * 64 + next))
      else .partway ⟨owed - 1, 0x80, 0xBF, value * 64 + next⟩ :=
  resume_within within (by simp) (by simp; omega)

/-- From what is pending on, the bytes are those of one character. -/
inductive Completes : Option Pending → List UInt8 → Char → Prop where
  | last {pending : Option Pending} {b : UInt8} {c : Char}
      (read : pending.elim start resume b = .complete c) : Completes pending [b] c
  | more {pending : Option Pending} {b : UInt8} {p : Pending} {tail : List UInt8} {c : Char}
      (read : pending.elim start resume b = .partway p) (later : Completes (some p) tail c) :
      Completes pending (b :: tail) c

theorem completes_char (c : Char) : Completes none (String.utf8EncodeChar c) c := by
  have valid : c.toNat < 55296 ∨ 57343 < c.toNat ∧ c.toNat < 1114112 := c.valid
  have whole : Char.ofNat c.toNat = c := c.ofNat_toNat
  unfold String.utf8EncodeChar
  rw [show c.val.toNat = c.toNat from rfl]
  generalize c.toNat = v at valid whole
  subst whole
  dsimp only
  -- One case for each number of bytes; the bits that they hold make up the character again.
  by_cases one : v ≤ 127
  · have place : (UInt8.ofNat v).toNat = v := by
      rw [UInt8.toNat_ofNat']
      omega
    rw [if_pos one]
    refine .last ?_
    rw [Option.elim_none, start_ascii (by omega), place]
  · rw [if_neg one]
    by_cases two : v ≤ 2047
    · have value : v / 64 % 32 * 64 + v % 64 = v := by omega
      rw [if_pos two]
      refine .more (start_two (by omega) (by omega)) (.last ?_)
      rw [Option.elim_some, resume_any (by omega), if_pos (Nat.le_refl 1), value]
    · rw [if_neg two]
      by_cases three : v ≤ 65535
      · obtain ⟨low, high, started, below, above⟩ :=
          start_three (v / 4096 % 16) (v / 64 % 64) (by omega) (by omega) (by omega) (by omega)
        have second : resume ⟨2, low, high, v / 4096 % 16⟩ (UInt8.ofNat (v / 64 % 64 + 128)) =
            .partway ⟨1, 0x80, 0xBF, v / 4096 % 16 * 64 + v / 64 % 64⟩ :=
          resume_within (by omega) below above
        have value : (v / 4096 % 16 * 64 + v / 64 % 64) * 64 + v % 64 = v := by omega
        rw [if_pos three]
        refine .more started (.more second (.last ?_))
        rw [Option.elim_some, resume_any (by omega), if_pos (Nat.le_refl 1), value]
      · obtain ⟨low, high, started, below, above⟩ :=
          start_four (v / 262144 % 8) (v / 4096 % 64) (by omega) (by omega) (by omega)
        have second : resume ⟨3, low, high, v / 262144 % 8⟩ (UInt8.ofNat (v / 4096 % 64 + 128)) =
            .partway ⟨2, 0x80, 0xBF, v / 262144 % 8 * 64 + v / 4096 % 64⟩ :=
          resume_within (by omega) below above
        have third : resume ⟨2, 0x80, 0xBF, v / 262144 % 8 * 64 + v / 4096 % 64⟩
            (UInt8.ofNat (v / 64 % 64 + 128)) =
              .partway ⟨1, 0x80, 0xBF, (v / 262144 % 8 * 64 + v / 4096 % 64) * 64 + v / 64 % 64⟩ :=
          resume_any (by omega)
        have value : ((v / 262144 % 8 * 64 + v / 4096 % 64) * 64 + v / 64 % 64) * 64 + v % 64 = v := by
          omega
        rw [if_neg three]
        refine .more started (.more second (.more third (.last ?_)))
        rw [Option.elim_some, resume_any (by omega), if_pos (Nat.le_refl 1), value]

variable {pending : Option Pending} {front : List UInt8} {c : Char}

theorem Completes.decodeFrom (completes : Completes pending front c) (rest : List UInt8) :
    decodeFrom? pending (front ++ rest) = (decodeFrom? none rest).map (c :: ·) := by
  induction completes with
  | last read => simp only [List.cons_append, List.nil_append, decodeFrom?, read]
  | more read _ ih => simp only [List.cons_append, decodeFrom?, read, ih]

theorem Completes.decodeLossyFrom (completes : Completes pending front c) (rest : List UInt8) :
    decodeLossyFrom pending (front ++ rest) = c :: decodeLossyFrom none rest := by
  induction completes with
  | @last pending _ _ read =>
      cases pending with
      | none =>
          rw [Option.elim_none] at read
          simp only [List.cons_append, List.nil_append, Utf8.decodeLossyFrom, read]
      | some p =>
          rw [Option.elim_some] at read
          simp only [List.cons_append, List.nil_append, Utf8.decodeLossyFrom, read]
  | @more pending _ _ _ _ read _ ih =>
      cases pending with
      | none =>
          rw [Option.elim_none] at read
          simp only [List.cons_append, Utf8.decodeLossyFrom, read, ih]
      | some p =>
          rw [Option.elim_some] at read
          simp only [List.cons_append, Utf8.decodeLossyFrom, read, ih]

/-- What was encoded is read back. -/
theorem decodeFrom_encodeAll (cs : List Char) : decodeFrom? none (encodeAll cs) = some cs := by
  induction cs with
  | nil => rfl
  | cons c cs ih => rw [encodeAll_cons, (completes_char c).decodeFrom, ih, Option.map_some]

theorem decodeLossy_encodeAll (cs : List Char) : decodeLossyFrom none (encodeAll cs) = cs := by
  induction cs with
  | nil => rfl
  | cons c cs ih => rw [encodeAll_cons, (completes_char c).decodeLossyFrom, ih]

end Text.Utf8

end PegForest
