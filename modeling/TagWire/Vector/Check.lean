import TagWire.Text.Quoted
import TagWire.Vector.Case

/-!
# Checking cases

A case conforms if its bytes are read as its value to the last byte, and its
value is written as its bytes.  A list of cases is judged by its first case that
does not conform.
-/

namespace TagWire

/-- Why a case does not conform. -/
inductive Nonconformity
  /-- A text does not spell bytes. -/
  | invalidHex (fault : Hex.Fault)
  /-- A text does not spell a value, or not the value of the case. -/
  | invalidValue (member text : String)
  /-- The bytes cannot be read. -/
  | undecodable (error : WireError)
  /-- The value cannot be written. -/
  | unencodable (error : WireError)
  /-- The bytes are those of another value. -/
  | valueMismatch (expected actual : String)
  /-- There are bytes behind those of the value. -/
  | trailingBytes (consumed length : Nat)
  /-- The value is written as other bytes. -/
  | encodingMismatch (expected actual : String)
  deriving DecidableEq, Repr

/-- The first case that does not conform, and why. -/
structure CaseFailure where
  id : String
  cause : Nonconformity
  deriving DecidableEq, Repr

/-- Describes the fault for a reader of messages.  A byte that is no digit is
shown as the character of its number. -/
def Hex.Fault.message : Hex.Fault → String
  | .oddLength => "Odd number of digits"
  | .notADigit byte position =>
    let shown := Quoted.char (Char.ofNat byte.toNat)
    s!"Invalid character {shown} at position {position}"

def Nonconformity.message : Nonconformity → String
  | invalidHex fault => "invalid hex: " ++ fault.message
  | invalidValue member text =>
    let shown := Quoted.text text
    s!"cannot interpret {member} value {shown}"
  | undecodable error => "decode failed: " ++ error.message
  | unencodable error => "encode failed: " ++ error.message
  | valueMismatch expected actual => s!"decoded {actual}, expected {expected}"
  | trailingBytes consumed length => s!"consumed {consumed} of {length} bytes"
  | encodingMismatch expected actual =>
    s!"encoded {actual}, expected {expected}"

def CaseFailure.message (failure : CaseFailure) : String :=
  "case " ++ failure.id ++ ": " ++ failure.cause.message

namespace Check

def hexBytes (text : String) : Except Nonconformity (List UInt8) :=
  (Hex.decode (Utf8.encode text)).mapError .invalidHex

/-- The value that a member's text spells. -/
def value {α : Type} (member text : String) (read? : String → Option α) :
    Except Nonconformity α :=
  match read? text with
  | some value => .ok value
  | none => .error (.invalidValue member text)

/-- Checks bytes and a value against each other. -/
def agreement {α : Type} [DecidableEq α] (codec : Codec α) (display : α → String)
    (expected : α) (encoded : List UInt8) : Except Nonconformity Unit := do
  let (decoded, consumed) ← (codec.decode encoded).mapError .undecodable
  if decoded ≠ expected then
    throw (.valueMismatch (display expected) (display decoded))
  if consumed ≠ encoded.length then
    throw (.trailingBytes consumed encoded.length)
  let written ← (codec.encode expected).mapError .unencodable
  if written ≠ encoded then
    throw (.encodingMismatch (Hex.encode encoded) (Hex.encode written))

def showTag (tag : Tag) : String :=
  let typeCode := tag.typeCode.toNat
  let index := tag.index.toNat
  s!"Typdex \x7b type_code: {typeCode}, index: {index} \x7d"

def number {α : Type} [DecidableEq α] (codec : Codec α)
    (decimal? hex? : String → Option α) (display : α → String)
    (entry : NumberCase) : Except Nonconformity Unit := do
  let expected ← value "value_dec" entry.decimal decimal?
  let again ← value "value_hex" entry.hex hex?
  if again ≠ expected then
    throw (.invalidValue "value_hex" entry.hex)
  agreement codec display expected (← hexBytes entry.encoded)

def tag (entry : TagCase) : Except Nonconformity Unit := do
  let expected : Tag := { typeCode := entry.typeCode, index := entry.index }
  agreement Codec.tag showTag expected (← hexBytes entry.encoded)

def bytes (entry : BytesCase) : Except Nonconformity Unit := do
  let payload ← hexBytes entry.payload
  if payload.length ≠ entry.length.toNat then
    throw (.invalidValue "payload_length" (Numeral.unsignedDecimal entry.length))
  agreement Codec.bytes Hex.encode payload (← hexBytes entry.encoded)

def text (entry : TextCase) : Except Nonconformity Unit := do
  agreement Codec.closedText id entry.content (← hexBytes entry.encoded)

/-- Checks a case. -/
def entry : {kind : Kind} → kind.Case → Except Nonconformity Unit
  | .unsigned, entry =>
    number Codec.varint Numeral.unsignedDecimal? Numeral.unsignedHex?
      Numeral.unsignedDecimal entry
  | .signed, entry =>
    number Codec.signedVarint Numeral.signedDecimal? Numeral.signedHex?
      Numeral.signedDecimal entry
  | .tag, entry => tag entry
  | .bytes, entry => bytes entry
  | .text, entry => text entry

/-- Checks cases in order, and answers how many there are. -/
def cases {kind : Kind} (list : List kind.Case) : Except CaseFailure Nat := do
  list.forM fun one =>
    (entry one).mapError fun cause => { id := one.id, cause }
  return list.length

end Check

end TagWire
