import TagWire.Number.Varint

/-!
# Payloads behind their length

A payload stands behind a prefix that says how many bytes it has: a number of
variable length, or a big-endian number of a fixed width.  Text is a payload of
UTF-8, in one form with a zero byte at the end that the prefix counts.  A prefix
of a fixed width limits the payload, and a longer one is refused whole.
-/

namespace TagWire

namespace Payload

/-- Where a payload stands in the bytes that were read. -/
structure Span where
  start : Nat
  stop : Nat
  deriving DecidableEq, Repr

/-- The bytes inside the span. -/
def Span.of (span : Span) (bytes : List UInt8) : List UInt8 :=
  (bytes.drop span.start).take (span.stop - span.start)

/-- A payload of `length` bytes behind a prefix of `start` bytes, if that many
bytes are there. -/
def Span.within (start length : Nat) (bytes : List UInt8) :
    Except WireError Span :=
  if (bytes.take (start + length)).length < start + length then
    .error (.unexpectedEnd (start + length) bytes.length)
  else
    .ok { start, stop := start + length }

/-- Finds the payload behind a prefix of variable length. -/
def locate (bytes : List UInt8) : Except WireError Span := do
  let (length, start) ← Varint.decode bytes
  if Word.limit ≤ start + length.toNat then
    .error (.lengthOverflow length)
  else
    Span.within start length.toNat bytes

/-- Finds the payload behind a prefix of a fixed width. -/
def locateFixed (width : Nat) (bytes : List UInt8) : Except WireError Span :=
  let group := bytes.take width
  if group.length < width then
    .error (.unexpectedEnd width bytes.length)
  else
    Span.within width (BigEndian.decode group) bytes

/-- Puts a prefix of variable length before a payload. -/
def frame (payload : List UInt8) : List UInt8 :=
  Varint.encode (UInt64.ofNat payload.length) ++ payload

/-- The length of the longest payload behind a prefix of a fixed width. -/
def fixedLimit (width : Nat) : Nat :=
  Nat.pow 256 width - 1

/-- Puts a prefix of a fixed width before a payload. -/
def frameFixed (width : Nat) (payload : List UInt8) :
    Except WireError (List UInt8) :=
  if fixedLimit width < payload.length then
    .error (.lengthTooLarge payload.length (fixedLimit width))
  else
    .ok (BigEndian.encode width payload.length ++ payload)

/-- Reads a payload as text. -/
def openText (payload : List UInt8) : Except WireError String :=
  (Utf8.decode payload).mapError .invalidText

/-- Reads a payload as text with a zero byte at the end, which is not part of
the text. -/
def closedText (payload : List UInt8) : Except WireError String :=
  if payload.getLast? = some 0 then openText payload.dropLast
  else .error .missingTerminator

/-- The payload of a text with a zero byte at the end. -/
def ofClosedText (text : String) : List UInt8 :=
  Utf8.encode text ++ [0]

end Payload

end TagWire
