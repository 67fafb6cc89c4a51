import TagWire.FieldType
import TagWire.Text.Hex
import TagWire.Text.Utf8

/-!
# Wire errors

Everything that can go wrong with a buffer, a codec or a packet, and the text
that says so.
-/

namespace TagWire

/-- Why an operation on wire data failed. -/
inductive WireError
  /-- The memory asked for cannot be had. -/
  | allocationFailed (requested : Nat)
  /-- A buffer that cannot grow lacks the room. -/
  | capacityExhausted (needed remainder : Nat)
  /-- The memory must not be written. -/
  | readOnly
  /-- The bytes end before the item does. -/
  | unexpectedEnd (needed remainder : Nat)
  /-- The cursor would leave the extent. -/
  | positionOutOfBounds (position extent : Nat)
  /-- No tag begins with this byte. -/
  | malformedTag (lead : UInt8)
  /-- The index is too large for every tier of tags. -/
  | indexOutOfRange (index : UInt32)
  /-- The number is too large for a word. -/
  | varintOverflow
  /-- The payload is too long for its length prefix. -/
  | lengthTooLarge (length limit : Nat)
  /-- The announced payload would end beyond every address. -/
  | lengthOverflow (length : UInt64)
  /-- The payload is no text. -/
  | invalidText (fault : Utf8.Fault)
  /-- The text payload does not end with a zero byte. -/
  | missingTerminator
  /-- The code stands for no field type. -/
  | unknownFieldType (code : UInt8)
  /-- The field type has no values. -/
  | unsupportedFieldType (type : FieldType)
  /-- The packet has been ended. -/
  | packetFinished
  /-- The next field is not of the type asked for. -/
  | fieldTypeMismatch (expected found : FieldType)
  deriving DecidableEq, Repr

namespace WireError

def message : WireError → String
  | allocationFailed requested => s!"allocation of {requested} bytes failed"
  | capacityExhausted needed remainder =>
    s!"capacity exhausted: need {needed} bytes, {remainder} remaining"
  | readOnly => "buffer is read-only"
  | unexpectedEnd needed remainder =>
    s!"unexpected end of buffer: need {needed} bytes, {remainder} remaining"
  | positionOutOfBounds position extent =>
    s!"position {position} is beyond extent {extent}"
  | malformedTag lead => "malformed typdex header: 0x" ++ Hex.upperByte lead
  | indexOutOfRange index =>
    s!"typdex index {index.toNat} exceeds maximum 1048575"
  | varintOverflow => "varint overflows 64 bits"
  | lengthTooLarge length limit =>
    s!"payload of {length} bytes exceeds the {limit}-byte prefix limit"
  | lengthOverflow length =>
    s!"length prefix {length.toNat} does not fit in memory"
  | invalidText fault => "invalid UTF-8 in text payload: " ++ fault.message
  | missingTerminator => "text payload is missing its terminator"
  | unknownFieldType code => "unknown field type code: 0x" ++ Hex.upperByte code
  | unsupportedFieldType type => "unsupported field type: " ++ type.name
  | packetFinished => "packet is finished"
  | fieldTypeMismatch expected found =>
    s!"field type mismatch: expected {expected.name}, found {found.name}"

end WireError

end TagWire
