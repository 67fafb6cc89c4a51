import TagWire.Error
import TagWire.Number.Word

/-!
# Buffers

A buffer is a stretch of memory with one cursor, at which bytes are both written
and read, and a mark to which the cursor can return.  The extent is the whole
stretch, written or not.  How the memory is held decides whether it may be
written and whether it can grow.
-/

namespace TagWire

/-- How a buffer holds its memory. -/
inductive Holding
  /-- Memory of the buffer's own that can grow; `allocated` bytes of it are set
  aside, which may be more than the extent. -/
  | owned (allocated : Nat)
  /-- A copy of the caller's bytes. -/
  | cloned
  /-- Memory handed over by the caller. -/
  | adopted
  /-- The caller's memory, open for writing; `beyond` is the part of it behind
  the extent. -/
  | borrowed (beyond : List UInt8)
  /-- The caller's memory, for reading only. -/
  | view
  deriving DecidableEq, Repr

namespace Holding

def name : Holding → String
  | owned _ => "Owned"
  | cloned => "Cloned"
  | adopted => "Adopted"
  | borrowed _ => "Borrowed"
  | view => "View"

/-- Whether the memory goes away with the buffer. -/
def isReleased : Holding → Bool
  | owned _ | cloned | adopted => true
  | borrowed _ | view => false

/-- Whether appending may lengthen the memory. -/
def isGrowable : Holding → Bool
  | owned _ => true
  | _ => false

end Holding

/-- Memory with a cursor and a mark. -/
structure Buffer where
  holding : Holding
  content : List UInt8
  position : Nat
  mark : Nat
  deriving DecidableEq, Repr

/-- An action on a buffer: it answers or fails, and leaves a buffer either
way. -/
abbrev BufferM := EStateM WireError Buffer

namespace Buffer

/-- The number of addresses: no offset reaches it. -/
def addressLimit : Nat := Word.limit

/-- The length of the largest piece of memory that can be had. -/
def allocationLimit : Nat := Word.signedLimit - 1

/-- The least extent of a buffer that has grown. -/
def leastGrowth : Nat := 64

/-- A buffer at the start of its memory. -/
def atStart (holding : Holding) (content : List UInt8) : Buffer :=
  { holding, content, position := 0, mark := 0 }

def owned (capacity : Nat) : Except WireError Buffer :=
  if allocationLimit < capacity then .error (.allocationFailed capacity)
  else .ok (atStart (.owned capacity) (List.replicate capacity 0))

def cloned (content : List UInt8) : Buffer := atStart .cloned content

def adopted (content : List UInt8) : Buffer := atStart .adopted content

def borrowed (content : List UInt8) : Buffer := atStart (.borrowed []) content

def view (content : List UInt8) : Buffer := atStart .view content

/-- The length of the memory that the cursor may move in. -/
def extent (buffer : Buffer) : Nat := buffer.content.length

/-- The number of bytes behind the cursor. -/
def remainder (buffer : Buffer) : Nat := buffer.extent - buffer.position

/-- The number of bytes set aside for the buffer. -/
def capacity (buffer : Buffer) : Nat :=
  match buffer.holding with
  | .owned allocated => allocated
  | _ => buffer.extent

/-- The bytes behind the cursor. -/
def unread (buffer : Buffer) : List UInt8 :=
  buffer.content.drop buffer.position

/-- The bytes before the cursor. -/
def written (buffer : Buffer) : List UInt8 :=
  buffer.content.take buffer.position

/-- All of the caller's memory, the part behind the extent included. -/
def memory (buffer : Buffer) : List UInt8 :=
  match buffer.holding with
  | .borrowed beyond => buffer.content ++ beyond
  | _ => buffer.content

/-- Moves the cursor and the mark to the start. -/
def clear (buffer : Buffer) : Buffer :=
  { buffer with position := 0, mark := 0 }

def rewind (buffer : Buffer) : Buffer :=
  { buffer with position := 0 }

def setMark (buffer : Buffer) : Buffer :=
  { buffer with mark := buffer.position }

def reset (buffer : Buffer) : Buffer :=
  { buffer with position := buffer.mark }

/-- Moves the cursor, and pulls the mark back to it if it lies behind. -/
def moveTo (buffer : Buffer) (position : Nat) : Buffer :=
  { buffer with position, mark := min buffer.mark position }

def setPosition (position : Nat) : BufferM Unit := fun buffer =>
  if buffer.extent < position then
    .error (.positionOutOfBounds position buffer.extent) buffer
  else
    .ok () (buffer.moveTo position)

/-- Cuts the extent down to the written bytes and moves to the start.  Memory
that the caller lent stays as it is behind the extent. -/
def intoWritten (buffer : Buffer) : Buffer :=
  let holding := match buffer.holding with
    | .borrowed beyond => .borrowed (buffer.unread ++ beyond)
    | holding => holding
  atStart holding buffer.written

end Buffer

end TagWire
