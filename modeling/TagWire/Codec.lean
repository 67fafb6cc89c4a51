import TagWire.Number.Zigzag
import TagWire.Payload
import TagWire.Tag

/-!
# Codecs

A codec ties the bytes of an item to the way back: it writes values of one type
and reads them from the start of a byte string.  Everything that a buffer can
append, look at and take is one of the codecs of this module.
-/

namespace TagWire

/-- Reads an item at the start of the bytes, and says how many bytes it has. -/
abbrev Decoder (α : Type) :=
  List UInt8 → Except WireError (α × Nat)

/-- The written form of the values of a type, and how it is read. -/
structure Codec (α : Type) where
  encode : α → Except WireError (List UInt8)
  decode : Decoder α

namespace Decoder

/-- Takes a fixed number of bytes as they are. -/
def run (count : Nat) : Decoder (List UInt8) := fun bytes =>
  let taken := bytes.take count
  if taken.length < count then .error (.unexpectedEnd count bytes.length)
  else .ok (taken, count)

/-- Reads on with the payload of a span, the span's end being what the item
takes. -/
def ofSpan {α : Type} (locate : List UInt8 → Except WireError Payload.Span)
    (read : List UInt8 → Except WireError α) : Decoder α := fun bytes => do
  let span ← locate bytes
  let value ← read (span.of bytes)
  return (value, span.stop)

end Decoder

namespace Codec

/-- Words of a fixed width, most significant byte first. -/
def word {α : Type} (width : Nat) (toNat : α → Nat) (ofNat : Nat → α) :
    Codec α where
  encode value := .ok (BigEndian.encode width (toNat value))
  decode bytes := do
    let (group, length) ← Decoder.run width bytes
    return (ofNat (BigEndian.decode group), length)

def uint8 : Codec UInt8 := word 1 UInt8.toNat UInt8.ofNat

def uint16 : Codec UInt16 := word 2 UInt16.toNat UInt16.ofNat

/-- The low twenty-four bits of a word. -/
def uint24 : Codec UInt32 := word 3 UInt32.toNat UInt32.ofNat

def uint32 : Codec UInt32 := word 4 UInt32.toNat UInt32.ofNat

def uint64 : Codec UInt64 := word 8 UInt64.toNat UInt64.ofNat

def int8 : Codec Int8 :=
  word 1 (·.toUInt8.toNat) fun number => (UInt8.ofNat number).toInt8

def int16 : Codec Int16 :=
  word 2 (·.toUInt16.toNat) fun number => (UInt16.ofNat number).toInt16

def int32 : Codec Int32 :=
  word 4 (·.toUInt32.toNat) fun number => (UInt32.ofNat number).toInt32

def int64 : Codec Int64 :=
  word 8 (·.toUInt64.toNat) fun number => (UInt64.ofNat number).toInt64

/-- Truth values, written as zero and one; every byte but zero reads as true. -/
def bool : Codec Bool := word 1 Bool.toNat (· != 0)

/-- The bit patterns of single-precision numbers. -/
def binary32 : Codec UInt32 := uint32

/-- The bit patterns of double-precision numbers. -/
def binary64 : Codec UInt64 := uint64

def varint : Codec UInt64 where
  encode value := .ok (Varint.encode value)
  decode := Varint.decode

/-- Signed words of variable length, folded onto unsigned ones. -/
def signedVarint : Codec Int64 where
  encode value := .ok (Varint.encode (Zigzag.encode value))
  decode bytes := do
    let (folded, length) ← Varint.decode bytes
    return (Zigzag.decode folded, length)

def tag : Codec Tag where
  encode := Tag.encode
  decode := Tag.decode

def bytes : Codec (List UInt8) where
  encode payload := .ok (Payload.frame payload)
  decode := Decoder.ofSpan Payload.locate pure

/-- Text with a zero byte at its end, behind a length of variable length that
counts the zero byte. -/
def closedText : Codec String where
  encode text := .ok (Payload.frame (Payload.ofClosedText text))
  decode := Decoder.ofSpan Payload.locate Payload.closedText

/-- Text behind a length of variable length. -/
def openText : Codec String where
  encode text := .ok (Payload.frame (Utf8.encode text))
  decode := Decoder.ofSpan Payload.locate Payload.openText

def shortBytes (width : Nat) : Codec (List UInt8) where
  encode payload := Payload.frameFixed width payload
  decode := Decoder.ofSpan (Payload.locateFixed width) pure

def shortText (width : Nat) : Codec String where
  encode text := Payload.frameFixed width (Utf8.encode text)
  decode := Decoder.ofSpan (Payload.locateFixed width) Payload.openText

end Codec

end TagWire
