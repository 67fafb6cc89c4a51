import TagWire.Buffer.Transfer
import TagWire.Field

/-!
# Writing packets

A writer appends records at the cursor of a buffer until the end record closes
the packet.  A record is written whole or not at all: if there is no room for
the value, the cursor goes back before the tag.
-/

namespace TagWire

/-- A packet in the making: its buffer, the number of records in it and whether
it has been closed. -/
structure Writer where
  buffer : Buffer
  fieldCount : Nat
  finished : Bool
  deriving DecidableEq, Repr

/-- An action on a writer: it answers or fails, and leaves a writer either
way. -/
abbrev WriterM := EStateM WireError Writer

namespace Writer

def ofBuffer (buffer : Buffer) : Writer :=
  { buffer, fieldCount := 0, finished := false }

def owned (capacity : Nat) : Except WireError Writer :=
  (Buffer.owned capacity).map ofBuffer

/-- Opens a packet over the caller's memory, which it cannot outgrow. -/
def borrowed (memory : List UInt8) : Writer :=
  ofBuffer (Buffer.borrowed memory)

def bytes (writer : Writer) : List UInt8 := writer.buffer.written

/-- Drops the packet and opens another one at the start of the memory. -/
def clear (writer : Writer) : Writer := ofBuffer writer.buffer.clear

def writeRecord (field : Field) : BufferM Unit := do
  Buffer.writeEncoded field.tag.encode
  Buffer.writeEncoded field.value.encode

/-- Appends a record, unless the packet is closed.  The end record closes it. -/
def append (field : Field) : WriterM Unit := fun writer =>
  if writer.finished then
    .error .packetFinished writer
  else
    match writeRecord field writer.buffer with
    | .ok () buffer =>
      .ok () {
        buffer
        fieldCount := writer.fieldCount + 1
        finished := field.value.type == .eof }
    | .error error buffer =>
      .error error
        { writer with buffer := buffer.moveTo writer.buffer.position }

def appendEof : WriterM Unit := append { index := 0, value := .eof }

/-- Closes the packet and answers its bytes. -/
def finish : WriterM (List UInt8) := do
  appendEof
  return (← get).bytes

end Writer

end TagWire
