import TagWire.Packet.Writer

/-!
# Reading packets

A reader walks the records behind the cursor of a buffer.  It takes a whole
record or leaves the cursor where it is, and it reads a packet up to its end
record or not at all.
-/

namespace TagWire

namespace Packet

/-- Reads records up to the first end record, and says how many bytes they
take. -/
def decode (bytes : List UInt8) : Except WireError (List Field × Nat) :=
  match _ : Field.decode bytes with
  | .error error => .error error
  | .ok (field, length) =>
    if field.value = .eof then
      .ok ([field], length)
    else
      (decode (bytes.drop length)).map fun (fields, rest) =>
        (field :: fields, length + rest)
termination_by bytes.length
decreasing_by exact Field.decode_shortens ‹_›

end Packet

/-- A packet that is being read. -/
structure Reader where
  buffer : Buffer
  deriving DecidableEq, Repr

/-- An action on a reader: it answers or fails, and leaves a reader either
way. -/
abbrev ReaderM := EStateM WireError Reader

namespace Reader

def ofBuffer (buffer : Buffer) : Reader := { buffer }

def view (bytes : List UInt8) : Reader := ofBuffer (Buffer.view bytes)

def cloned (bytes : List UInt8) : Reader := ofBuffer (Buffer.cloned bytes)

/-- Runs an action on the buffer behind a reader. -/
def onBuffer {α : Type} (action : BufferM α) : ReaderM α := fun reader =>
  match action reader.buffer with
  | .ok answer buffer => .ok answer { buffer }
  | .error error buffer => .error error { buffer }

/-- The type and the index of the next record. -/
def peekType (reader : Reader) : Except WireError (FieldType × UInt32) := do
  let tag ← reader.buffer.peek Codec.tag
  let type ← Field.typeOf tag
  return (type, tag.index)

def nextField : ReaderM Field := onBuffer (Buffer.takeWith Field.decode)

/-- Takes the records up to the first end record.  On failure the cursor is
where it was, and no mark lies behind it. -/
def fields : ReaderM (List Field) := fun reader =>
  match Packet.decode reader.buffer.unread with
  | .ok (fields, length) =>
    .ok fields { buffer :=
      { reader.buffer with position := reader.buffer.position + length } }
  | .error error =>
    .error error { buffer := reader.buffer.moveTo reader.buffer.position }

def nextOf (expected : FieldType) : ReaderM Field := do
  match (← get).peekType with
  | .error error => throw error
  | .ok (found, _) =>
    if found = expected then nextField
    else throw (.fieldTypeMismatch expected found)

/-- Takes the next record if it is of the given type, and answers its index and
the content of its value. -/
def nextContent {α : Type} (expected : FieldType) (content? : Value → Option α) :
    ReaderM (UInt32 × α) := do
  let field ← nextOf expected
  match content? field.value with
  | some content => return (field.index, content)
  | none => throw (.fieldTypeMismatch expected field.value.type)

def nextVersion : ReaderM UInt64 := do
  let (_, number) ← nextContent .version fun
    | .version number => some number
    | _ => none
  return number

def nextEof : ReaderM Unit := do
  let _ ← nextOf .eof

def nextBool : ReaderM (UInt32 × Bool) :=
  nextContent .bool fun
    | .bool truth => some truth
    | _ => none

def nextInt : ReaderM (UInt32 × Int64) :=
  nextContent .int fun
    | .int number => some number
    | _ => none

def nextUint : ReaderM (UInt32 × UInt64) :=
  nextContent .uint fun
    | .uint number => some number
    | _ => none

def nextFloat : ReaderM (UInt32 × UInt32) :=
  nextContent .float fun
    | .float bits => some bits
    | _ => none

def nextDouble : ReaderM (UInt32 × UInt64) :=
  nextContent .double fun
    | .double bits => some bits
    | _ => none

def nextText : ReaderM (UInt32 × String) :=
  nextContent .text fun
    | .text content => some content
    | _ => none

def nextBytes : ReaderM (UInt32 × List UInt8) :=
  nextContent .bytes fun
    | .bytes content => some content
    | _ => none

end Reader

/-- Hands the written bytes over to be read from the start. -/
def Writer.intoReader (writer : Writer) : Reader :=
  Reader.ofBuffer writer.buffer.intoWritten

end TagWire
