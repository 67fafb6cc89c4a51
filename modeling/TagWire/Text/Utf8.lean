/-!
# UTF-8 text

Text travels as UTF-8.  Writing it is the core encoding of each character in
turn.  Reading is a machine that takes one byte at a time, so that it stops
at the first byte no text can hold and can say how much before it was sound.
-/

namespace TagWire

namespace Utf8

/-- Where bytes stop being UTF-8: the length of the longest sound beginning,
and the length of the ill-formed sequence behind it.  There is no such length
if the bytes merely end inside a sequence that was sound so far. -/
structure Fault where
  soundLength : Nat
  malformed : Option Nat
  deriving DecidableEq, Repr

namespace Fault

def message (fault : Fault) : String :=
  match fault.malformed with
  | some length =>
    s!"invalid utf-8 sequence of {length} bytes from index {fault.soundLength}"
  | none => s!"incomplete utf-8 byte sequence from index {fault.soundLength}"

end Fault

/-- A character that has begun: the bytes taken so far, the bits they carry,
how many bytes are still owed, and the bounds of the next one. -/
structure Pending where
  taken : Nat
  bits : Nat
  owed : Nat
  low : UInt8
  high : UInt8
  deriving DecidableEq, Repr

/-- What a first byte begins.  The bounds of the second byte leave out the
over-long forms, the surrogates and everything above the last character. -/
def Pending.ofLead? (lead : UInt8) : Option Pending :=
  let code := lead.toNat
  if code < 0x80 then some ⟨1, code, 0, 0x80, 0xBF⟩
  else if code < 0xC2 then none
  else if code < 0xE0 then some ⟨1, code - 0xC0, 1, 0x80, 0xBF⟩
  else if code = 0xE0 then some ⟨1, 0, 2, 0xA0, 0xBF⟩
  else if code = 0xED then some ⟨1, 0xD, 2, 0x80, 0x9F⟩
  else if code < 0xF0 then some ⟨1, code - 0xE0, 2, 0x80, 0xBF⟩
  else if code = 0xF0 then some ⟨1, 0, 3, 0x90, 0xBF⟩
  else if code < 0xF4 then some ⟨1, code - 0xF0, 3, 0x80, 0xBF⟩
  else if code = 0xF4 then some ⟨1, 4, 3, 0x80, 0x8F⟩
  else none

/-- Takes one more byte, unless the character cannot go on with it. -/
def Pending.next? (pending : Pending) (byte : UInt8) : Option Pending :=
  if pending.low ≤ byte ∧ byte ≤ pending.high then
    some {
      taken := pending.taken + 1
      bits := pending.bits * 64 + (byte.toNat - 0x80)
      owed := pending.owed - 1
      low := 0x80
      high := 0xBF
    }
  else
    none

/-- Reads on from the middle of a text: `soundLength` bytes gave the characters
`read`, latest first, and `pending` is the character that has begun. -/
def decodeFrom (soundLength : Nat) (read : List Char) :
    Option Pending → List UInt8 → Except Fault (List Char)
  | none, [] => .ok read.reverse
  | some _, [] => .error { soundLength, malformed := none }
  | none, byte :: rest =>
    match Pending.ofLead? byte with
    | none => .error { soundLength, malformed := some 1 }
    | some begun =>
      if begun.owed = 0 then
        decodeFrom (soundLength + 1) (Char.ofNat begun.bits :: read) none rest
      else
        decodeFrom soundLength read (some begun) rest
  | some pending, byte :: rest =>
    match pending.next? byte with
    | none => .error { soundLength, malformed := some pending.taken }
    | some more =>
      if more.owed = 0 then
        decodeFrom (soundLength + more.taken)
          (Char.ofNat more.bits :: read) none rest
      else
        decodeFrom soundLength read (some more) rest

/-- Reads bytes as text, or says where they stop being one. -/
def decode (bytes : List UInt8) : Except Fault String :=
  (decodeFrom 0 [] none bytes).map String.ofList

/-- The bytes of a text. -/
def encode (text : String) : List UInt8 :=
  text.toList.flatMap String.utf8EncodeChar

/-- Reads bytes as text with a replacement character for each ill-formed
sequence.  The count of bytes bounds the number of faults. -/
def decodeLossy (bytes : List UInt8) : String :=
  go bytes.length bytes ""
where
  /-- Reads the bytes after the text `read`, with `faults` faults still
  allowed. -/
  go (faults : Nat) (bytes : List UInt8) (read : String) : String :=
    match decode bytes with
    | .ok text => read ++ text
    | .error fault =>
      let sound := match decode (bytes.take fault.soundLength) with
        | .ok text => text
        | .error _ => ""
      let read := read ++ sound ++ "\uFFFD"
      match faults, fault.malformed with
      | faults + 1, some length =>
        go faults (bytes.drop (fault.soundLength + length)) read
      | _, _ => read

end Utf8

end TagWire
