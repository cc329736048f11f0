/-!
# Text as bytes

Texts are stored and sent as UTF-8. `ofBytes?` reads exactly the bytes that some text has,
`toBytes` writes them, and `ofBytesLossy` reads any bytes, putting the replacement character
in the place of every maximal part that begins no character.
-/
namespace Synod.Text

def toBytes (s : String) : List UInt8 := s.toByteArray.data.toList

/-- Characters are written one after the other. -/
theorem toBytes_ofList (cs : List Char) :
    toBytes (String.ofList cs) = cs.flatMap String.utf8EncodeChar := by
  rw [toBytes, String.toByteArray_ofList, List.utf8Encode, List.toList_data_toByteArray]

def ofBytes? (bytes : List UInt8) : Option String := String.fromUTF8? ⟨bytes.toArray⟩

@[simp] theorem ofBytes?_toBytes (s : String) : ofBytes? (toBytes s) = some s := by
  have h : (⟨(toBytes s).toArray⟩ : ByteArray) = s.toByteArray := by
    simp [toBytes]
  rw [ofBytes?, h, String.fromUTF8?, dif_pos s.isValidUTF8]
  rfl

/-- A character under way: how many bytes are still due, between which bounds the next one must
lie, and the number read so far. -/
structure Partial where
  due : Nat
  low : UInt8
  high : UInt8
  value : Nat

/-- What the first byte of a character announces: how many bytes follow, and the bounds of the
next one, which keep out overlong forms, surrogates and numbers that are no character. -/
def announce? (b : UInt8) : Option Partial :=
  if 0xC2 ≤ b ∧ b ≤ 0xDF then some ⟨1, 0x80, 0xBF, b.toNat - 0xC0⟩
  else if b = 0xE0 then some ⟨2, 0xA0, 0xBF, 0⟩
  else if b = 0xED then some ⟨2, 0x80, 0x9F, 0xD⟩
  else if 0xE1 ≤ b ∧ b ≤ 0xEF then some ⟨2, 0x80, 0xBF, b.toNat - 0xE0⟩
  else if b = 0xF0 then some ⟨3, 0x90, 0xBF, 0⟩
  else if 0xF1 ≤ b ∧ b ≤ 0xF3 then some ⟨3, 0x80, 0xBF, b.toNat - 0xF0⟩
  else if b = 0xF4 then some ⟨3, 0x80, 0x8F, 4⟩
  else none

def replacement : Char := '\uFFFD'

/-- A byte where a character has to begin: the character it is, the one it announces, or the
replacement. -/
def begin (b : UInt8) : List Char × Option Partial :=
  if b < 0x80 then ([Char.ofNat b.toNat], none)
  else match announce? b with
    | some p => ([], some p)
    | none => ([replacement], none)

/-- One byte more of a character under way. A byte out of bounds ends it, and begins anew. -/
def advance (p : Partial) (b : UInt8) : List Char × Option Partial :=
  if p.low ≤ b ∧ b ≤ p.high then
    let value := p.value * 64 + (b.toNat - 0x80)
    if p.due ≤ 1 then ([Char.ofNat value], none) else ([], some ⟨p.due - 1, 0x80, 0xBF, value⟩)
  else
    let next := begin b
    (replacement :: next.1, next.2)

/-- The characters of any bytes, after those of a character under way. -/
def scan : Option Partial → List UInt8 → List Char
  | none, [] => []
  | some _, [] => [replacement]
  | none, b :: rest => (begin b).1 ++ scan (begin b).2 rest
  | some p, b :: rest => (advance p b).1 ++ scan (advance p b).2 rest

/-- Text of any bytes; what is no text becomes replacement characters. -/
def ofBytesLossy (bytes : List UInt8) : String :=
  (ofBytes? bytes).getD (String.ofList (scan none bytes))

@[simp] theorem ofBytesLossy_toBytes (s : String) : ofBytesLossy (toBytes s) = s := by
  simp [ofBytesLossy]

end Synod.Text
