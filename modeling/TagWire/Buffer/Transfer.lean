import TagWire.Buffer.Basic
import TagWire.Codec

/-!
# Writing to and reading from buffers

Every write makes room for its bytes and then puts them over what stood there;
there is no other way into the memory.  Every read decodes what lies behind the
cursor, and moves the cursor only if that was an item.
-/

namespace TagWire

namespace Buffer

/-- The extent of a buffer of its own memory once it has room up to `required`:
twice as much, within the addresses. -/
def grownExtent (required : Nat) : Nat :=
  max leastGrowth (min (2 * required) (addressLimit - 1))

/-- Lengthens memory of the buffer's own by zero bytes. -/
def grow (extent : Nat) (buffer : Buffer) : Buffer :=
  { buffer with
    holding := .owned (max buffer.capacity extent)
    content := buffer.content ++ List.replicate (extent - buffer.extent) 0 }

/-- Makes room for a number of bytes behind the cursor. -/
def reserve (needed : Nat) : BufferM Unit := fun buffer =>
  let required := buffer.position + needed
  if addressLimit ≤ required then
    .error (.allocationFailed (addressLimit - 1)) buffer
  else if buffer.holding = .view then
    .error .readOnly buffer
  else if needed ≤ buffer.remainder then
    .ok () buffer
  else if buffer.holding.isGrowable then
    let extent := grownExtent required
    if allocationLimit < extent then .error (.allocationFailed extent) buffer
    else .ok () (buffer.grow extent)
  else
    .error (.capacityExhausted needed buffer.remainder) buffer

/-- Puts bytes over those behind the cursor and moves past them. -/
def splice (bytes : List UInt8) (buffer : Buffer) : Buffer :=
  let stop := buffer.position + bytes.length
  { buffer with
    content :=
      buffer.content.take buffer.position ++ bytes ++ buffer.content.drop stop
    position := stop }

/-- Writes bytes at the cursor. -/
def write (bytes : List UInt8) : BufferM Unit := do
  reserve bytes.length
  modify (splice bytes)

/-- Writes the outcome of an encoder at the cursor.  What has no written form is
refused before any room is made for it. -/
def writeEncoded : Except WireError (List UInt8) → BufferM Unit
  | .ok bytes => write bytes
  | .error error => throw error

/-- Writes a value at the cursor. -/
def append {α : Type} (codec : Codec α) (value : α) : BufferM Unit :=
  writeEncoded (codec.encode value)

/-- Reads the item at the cursor. -/
def peekWith {α : Type} (decoder : Decoder α) (buffer : Buffer) :
    Except WireError α :=
  (decoder buffer.unread).map Prod.fst

/-- Reads the item at the cursor and moves past it. -/
def takeWith {α : Type} (decoder : Decoder α) : BufferM α := fun buffer =>
  match decoder buffer.unread with
  | .ok (value, length) =>
    .ok value { buffer with position := buffer.position + length }
  | .error error => .error error buffer

/-- Reads the value at the cursor. -/
def peek {α : Type} (codec : Codec α) (buffer : Buffer) : Except WireError α :=
  buffer.peekWith codec.decode

/-- Reads the value at the cursor and moves past it. -/
def next {α : Type} (codec : Codec α) : BufferM α :=
  takeWith codec.decode

def peekBytes (count : Nat) (buffer : Buffer) : Except WireError (List UInt8) :=
  buffer.peekWith (Decoder.run count)

def takeBytes (count : Nat) : BufferM (List UInt8) :=
  takeWith (Decoder.run count)

def takeRemaining : BufferM (List UInt8) := fun buffer =>
  .ok buffer.unread { buffer with position := buffer.extent }

end Buffer

end TagWire
