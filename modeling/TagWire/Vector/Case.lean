import TagWire.Codec
import TagWire.Json.Printer
import TagWire.Json.Value
import TagWire.Text.Numeral
import TagWire.Vector.Kind

/-!
# Cases

A case states a value and its bytes as text.  Each kind has one schema, which
names the members of its cases in order; writing a case and reading one both
follow it.
-/

namespace TagWire

/-- A word or a signed word in decimal and in hexadecimal, and its bytes. -/
structure NumberCase where
  id : String
  decimal : String
  hex : String
  encoded : String
  deriving DecidableEq, Repr

/-- A tag and its bytes. -/
structure TagCase where
  id : String
  typeCode : UInt8
  index : UInt32
  encoded : String
  deriving DecidableEq, Repr

/-- Bytes, their number, and the bytes behind their length. -/
structure BytesCase where
  id : String
  payload : String
  length : UInt64
  encoded : String
  deriving DecidableEq, Repr

/-- A text, and its bytes behind their length. -/
structure TextCase where
  id : String
  content : String
  encoded : String
  deriving DecidableEq, Repr

/-- The cases of a kind. -/
def Kind.Case : Kind → Type
  | .unsigned | .signed => NumberCase
  | .tag => TagCase
  | .bytes => BytesCase
  | .text => TextCase

/-! ## Members -/

/-- What a member of a case holds. -/
inductive Shape
  | text
  | natural (bits : Nat)
  deriving DecidableEq, Repr

/-- The members of the cases of a kind. -/
def Kind.schema : Kind → List (String × Shape)
  | .unsigned | .signed => [
    ("id", .text), ("value_dec", .text), ("value_hex", .text),
    ("encoded_hex", .text)]
  | .tag => [
    ("id", .text), ("type", .natural 8), ("index", .natural 32),
    ("encoded_hex", .text)]
  | .bytes => [
    ("id", .text), ("payload_hex", .text), ("payload_length", .natural 64),
    ("encoded_hex", .text)]
  | .text => [("id", .text), ("utf8", .text), ("encoded_hex", .text)]

namespace Kind.Case

/-- What a case says in its members. -/
def toScalars : {kind : Kind} → kind.Case → List Json.Scalar
  | .unsigned, (entry : NumberCase) | .signed, (entry : NumberCase) =>
    [.text entry.id, .text entry.decimal, .text entry.hex, .text entry.encoded]
  | .tag, (entry : TagCase) =>
    [.text entry.id, .natural entry.typeCode.toNat, .natural entry.index.toNat,
      .text entry.encoded]
  | .bytes, (entry : BytesCase) =>
    [.text entry.id, .text entry.payload, .natural entry.length.toNat,
      .text entry.encoded]
  | .text, (entry : TextCase) =>
    [.text entry.id, .text entry.content, .text entry.encoded]

/-- The case whose members say this. -/
def ofScalars? : (kind : Kind) → List Json.Scalar → Option kind.Case
  | .unsigned, [.text id, .text decimal, .text hex, .text encoded] =>
    some { id, decimal, hex, encoded : NumberCase }
  | .signed, [.text id, .text decimal, .text hex, .text encoded] =>
    some { id, decimal, hex, encoded : NumberCase }
  | .tag, [.text id, .natural typeCode, .natural index, .text encoded] =>
    some {
      id, typeCode := UInt8.ofNat typeCode, index := UInt32.ofNat index,
      encoded : TagCase }
  | .bytes, [.text id, .text payload, .natural length, .text encoded] =>
    some { id, payload, length := UInt64.ofNat length, encoded : BytesCase }
  | .text, [.text id, .text content, .text encoded] =>
    some { id, content, encoded : TextCase }
  | _, _ => none

def id : {kind : Kind} → kind.Case → String
  | .unsigned, (entry : NumberCase) | .signed, (entry : NumberCase) => entry.id
  | .tag, (entry : TagCase) => entry.id
  | .bytes, (entry : BytesCase) => entry.id
  | .text, (entry : TextCase) => entry.id

def print {kind : Kind} (entry : kind.Case) : List Char :=
  Json.printObject ((kind.schema.map Prod.fst).zip entry.toScalars)

end Kind.Case

/-! ## Building -/

def NumberCase.ofUnsigned (id : String) (value : UInt64) : NumberCase :=
  { id
    decimal := Numeral.unsignedDecimal value
    hex := Numeral.unsignedHex value
    encoded := Hex.encode (Varint.encode value) }

def NumberCase.ofSigned (id : String) (value : Int64) : NumberCase :=
  { id
    decimal := Numeral.signedDecimal value
    hex := Numeral.signedHex value
    encoded := Hex.encode (Varint.encode (Zigzag.encode value)) }

def TagCase.ofTag (id : String) (tag : Tag) : Except WireError TagCase := do
  let bytes ← tag.encode
  return {
    id, typeCode := tag.typeCode, index := tag.index, encoded := Hex.encode bytes }

def BytesCase.ofPayload (id : String) (payload : List UInt8) : BytesCase :=
  { id
    payload := Hex.encode payload
    length := UInt64.ofNat payload.length
    encoded := Hex.encode (Payload.frame payload) }

def TextCase.ofText (id : String) (content : String) : TextCase :=
  { id
    content
    encoded := Hex.encode (Payload.frame (Payload.ofClosedText content)) }

end TagWire
