import TagWire.Codec
import TagWire.Outcome

/-!
# Packet fields

A field is an index and a value.  It is written as a record: a tag with the code
of the value's type and the index, and then the value in that type's codec.
-/

namespace TagWire

/-- The value of a packet field.  Numbers with a fraction are kept as their bit
patterns, so nothing about them is ever rounded or compared. -/
inductive Value
  | eof
  | version (number : UInt64)
  | bool (truth : Bool)
  | int (number : Int64)
  | uint (number : UInt64)
  | float (bits : UInt32)
  | double (bits : UInt64)
  | text (content : String)
  | bytes (content : List UInt8)
  deriving DecidableEq, Repr

namespace Value

def type : Value → FieldType
  | eof => .eof
  | version _ => .version
  | bool _ => .bool
  | int _ => .int
  | uint _ => .uint
  | float _ => .float
  | double _ => .double
  | text _ => .text
  | bytes _ => .bytes

/-- The written form of the value behind its tag. -/
def encode : Value → Except WireError (List UInt8)
  | eof => .ok []
  | version number => Codec.varint.encode number
  | bool truth => Codec.bool.encode truth
  | int number => Codec.signedVarint.encode number
  | uint number => Codec.varint.encode number
  | float bits => Codec.binary32.encode bits
  | double bits => Codec.binary64.encode bits
  | text content => Codec.closedText.encode content
  | bytes content => Codec.bytes.encode content

def decodeWith {α : Type} (codec : Codec α) (ofContent : α → Value) :
    Decoder Value := fun body =>
  (codec.decode body).map fun (content, length) => (ofContent content, length)

/-- Reads a value of the given type. -/
def decode : FieldType → Decoder Value
  | .eof => fun _ => .ok (eof, 0)
  | .version => decodeWith Codec.varint version
  | .bool => decodeWith Codec.bool bool
  | .int => decodeWith Codec.signedVarint int
  | .uint => decodeWith Codec.varint uint
  | .float => decodeWith Codec.binary32 float
  | .double => decodeWith Codec.binary64 double
  | .text => decodeWith Codec.closedText text
  | .bytes => decodeWith Codec.bytes bytes
  | .array => fun _ => .error (.unsupportedFieldType .array)
  | .map => fun _ => .error (.unsupportedFieldType .map)

end Value

/-- One entry of a packet. -/
structure Field where
  index : UInt32
  value : Value
  deriving DecidableEq, Repr

namespace Field

/-- The tag of the field's record.  The two types that stand for a packet as a
whole have no index. -/
def tag (field : Field) : Tag :=
  let type := field.value.type
  let index := match type with
    | .eof | .version => 0
    | _ => field.index
  { typeCode := type.code, index }

def typeOf (tag : Tag) : Except WireError FieldType :=
  match FieldType.ofCode? tag.typeCode with
  | some type => .ok type
  | none => .error (.unknownFieldType tag.typeCode)

/-- The written form of the field. -/
def encode (field : Field) : Except WireError (List UInt8) := do
  let tag ← field.tag.encode
  let body ← field.value.encode
  return tag ++ body

/-- Reads the record at the start of the bytes. -/
def decode : Decoder Field := fun bytes => do
  let (tag, tagLength) ← Tag.decode bytes
  let type ← typeOf tag
  let (value, bodyLength) ← Value.decode type (bytes.drop tagLength)
  return ({ index := tag.index, value }, tagLength + bodyLength)

end Field

theorem Tag.decode_length_pos {bytes : List UInt8} {tag : Tag} {length : Nat}
    (read : Tag.decode bytes = .ok (tag, length)) : 0 < length := by
  unfold Tag.decode at read
  split at read
  · simp at read
  · split at read
    · simp at read
    · rename_i tier found
      have member : tier ∈ Tag.tiers := List.mem_of_getElem? found
      have positive : ∀ tier ∈ Tag.tiers, 0 < tier.length := by decide
      simp only at read
      split at read
      · simp at read
      · simp only [Except.ok.injEq, Prod.mk.injEq] at read
        exact read.2 ▸ positive tier member

theorem Tag.decode_nil : Tag.decode [] = .error (.unexpectedEnd 1 0) := rfl

/-- A record has been read by reading its tag, and behind it a value of the type
that the tag announces. -/
theorem Field.decode_parts {bytes : List UInt8} {field : Field} {length : Nat}
    (read : Field.decode bytes = .ok (field, length)) :
    ∃ tag tagLength value bodyLength,
      Tag.decode bytes = .ok (tag, tagLength) ∧
      (∃ type, Field.typeOf tag = .ok type ∧
        Value.decode type (bytes.drop tagLength) = .ok (value, bodyLength)) ∧
      field = { index := tag.index, value } ∧
      length = tagLength + bodyLength := by
  simp only [Field.decode, bind_ok_iff] at read
  obtain ⟨⟨tag, tagLength⟩, tagged, type, known, ⟨value, bodyLength⟩, valued,
    same⟩ := read
  cases same
  exact ⟨tag, tagLength, value, bodyLength, tagged, ⟨type, known, valued⟩,
    rfl, rfl⟩

theorem Field.decode_length_pos {bytes : List UInt8} {field : Field}
    {length : Nat} (read : Field.decode bytes = .ok (field, length)) :
    0 < length := by
  obtain ⟨tag, tagLength, value, bodyLength, tagged, _, _, rfl⟩ :=
    Field.decode_parts read
  exact Nat.add_pos_left (Tag.decode_length_pos tagged) bodyLength

/-- What a record leaves behind it is shorter than what it was read from. -/
theorem Field.decode_shortens {bytes : List UInt8} {field : Field}
    {length : Nat} (read : Field.decode bytes = .ok (field, length)) :
    (bytes.drop length).length < bytes.length := by
  have positive := Field.decode_length_pos read
  cases bytes with
  | nil => simp [Field.decode, Tag.decode_nil, bind, Except.bind] at read
  | cons byte rest =>
    rw [List.length_drop, List.length_cons]
    omega

end TagWire
