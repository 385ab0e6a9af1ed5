/-!
# Reading UTF-8

A byte string is read one byte at a time.  Between two characters nothing is pending; inside one,
`Pending` keeps how many continuation bytes are owed and the bounds on the next, so that overlong
forms, surrogates and numbers beyond the last code point are refused at the first byte that rules
the character out.  The strict reader gives up there.  The lossy reader writes one replacement
character for the bytes read so far of the broken character and reads the refused byte afresh, so
every maximal ill-formed piece becomes one replacement character.
-/

set_option autoImplicit false

namespace PegForest.Text.Utf8

def replacement : Char := '\ufffd'

/-- A character that is not finished: `owed` bytes are to come, the next one between `low` and
`high`, and `value` collects the bits read so far. -/
structure Pending where
  owed : Nat
  low : UInt8
  high : UInt8
  value : Nat
  deriving DecidableEq, Repr

inductive Progress where
  | complete (c : Char)
  | partway (pending : Pending)
  | refused
  deriving DecidableEq, Repr

def start (b : UInt8) : Progress :=
  if b < 0x80 then .complete (Char.ofNat b.toNat)
  else if 0xC2 ≤ b ∧ b ≤ 0xDF then .partway ⟨1, 0x80, 0xBF, b.toNat - 0xC0⟩
  else if b = 0xE0 then .partway ⟨2, 0xA0, 0xBF, 0⟩
  else if b = 0xED then .partway ⟨2, 0x80, 0x9F, 0xD⟩
  else if 0xE1 ≤ b ∧ b ≤ 0xEF then .partway ⟨2, 0x80, 0xBF, b.toNat - 0xE0⟩
  else if b = 0xF0 then .partway ⟨3, 0x90, 0xBF, 0⟩
  else if 0xF1 ≤ b ∧ b ≤ 0xF3 then .partway ⟨3, 0x80, 0xBF, b.toNat - 0xF0⟩
  else if b = 0xF4 then .partway ⟨3, 0x80, 0x8F, 4⟩
  else .refused

def resume (p : Pending) (b : UInt8) : Progress :=
  if p.low ≤ b ∧ b ≤ p.high then
    let value := p.value * 64 + (b.toNat - 0x80)
    if p.owed ≤ 1 then .complete (Char.ofNat value)
    else .partway ⟨p.owed - 1, 0x80, 0xBF, value⟩
  else .refused

def decodeFrom? : Option Pending → List UInt8 → Option (List Char)
  | none, [] => some []
  | some _, [] => none
  | pending, b :: rest =>
      match (pending.elim start resume) b with
      | .complete c => (decodeFrom? none rest).map (c :: ·)
      | .partway p => decodeFrom? (some p) rest
      | .refused => none

def decode? (bytes : List UInt8) : Option String :=
  (decodeFrom? none bytes).map String.ofList

/-- The characters of any byte string, after what is pending. -/
def decodeLossyFrom : Option Pending → List UInt8 → List Char
  | none, [] => []
  | some _, [] => [replacement]
  | none, b :: rest =>
      match start b with
      | .complete c => c :: decodeLossyFrom none rest
      | .partway p => decodeLossyFrom (some p) rest
      | .refused => replacement :: decodeLossyFrom none rest
  | some p, b :: rest =>
      match resume p b with
      | .complete c => c :: decodeLossyFrom none rest
      | .partway q => decodeLossyFrom (some q) rest
      | .refused =>
          match start b with
          | .complete c => replacement :: c :: decodeLossyFrom none rest
          | .partway q => replacement :: decodeLossyFrom (some q) rest
          | .refused => replacement :: replacement :: decodeLossyFrom none rest

def decodeLossy (bytes : List UInt8) : String :=
  String.ofList (decodeLossyFrom none bytes)

def encode (text : String) : Array UInt8 :=
  text.toUTF8.data

end PegForest.Text.Utf8
